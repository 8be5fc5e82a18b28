import Mathlib.Data.List.TakeWhile
import SchemaScript.Yaml.ScalarValue

/-!
Scalars whose type is told by their form. What has the form of a type has a value of that type, or
is at fault in an ordinary way; only a number in base 60 may have so many parts that it ends
everything.
-/

namespace SchemaScript.Yaml

open Number

section Several

variable {α β ε : Type} {f : α → Except ε β} {xs : List α}

theorem exists_error_of_mapM {e : ε} (failed : xs.mapM f = .error e) : ∃ x ∈ xs, f x = .error e := by
  induction xs with
  | nil => cases failed
  | cons x rest ih =>
    rw [List.mapM_cons] at failed
    cases first : f x with
    | error e' =>
      simp only [first, bind, Except.bind, Except.error.injEq] at failed
      exact ⟨x, List.mem_cons_self, first.trans (congrArg _ failed)⟩
    | ok y =>
      cases others : rest.mapM f with
      | error e' =>
        simp only [first, others, bind, Except.bind, Except.error.injEq] at failed
        obtain ⟨z, listed, wrong⟩ := ih (others.trans (congrArg _ failed))
        exact ⟨z, List.mem_cons_of_mem _ listed, wrong⟩
      | ok ys =>
        simp only [first, others, bind, Except.bind] at failed
        cases failed

theorem error_of_map {read : Except ε α} {g : α → β} {e : ε} (failed : read.map g = .error e) :
    read = .error e := by
  cases read with
  | ok a => cases failed
  | error e' => cases failed; rfl

theorem length_of_mapM {ys : List β} (read : xs.mapM f = .ok ys) : ys.length = xs.length := by
  induction xs generalizing ys with
  | nil => cases read; rfl
  | cons x rest ih =>
    rw [List.mapM_cons] at read
    cases first : f x with
    | error e => simp only [first, bind, Except.bind] at read; cases read
    | ok y =>
      cases others : rest.mapM f with
      | error e => simp only [first, others, bind, Except.bind] at read; cases read
      | ok zs =>
        simp only [first, others, bind, Except.bind, pure, Except.pure, Except.ok.injEq] at read
        rw [← read, List.length_cons, List.length_cons, ih others]

end Several

theorem length_splitOn_colon (cs : List Char) : (cs.splitOn ':').length = cs.count ':' + 1 := by
  induction cs with
  | nil => rfl
  | cons c rest ih =>
    rw [List.splitOn_cons_eq_if_modifyHead]
    by_cases colon : c = ':'
    · simp [colon, ih]
    · simp [colon, ih]

theorem exists_truthValue {text : String} (truth : Form.isTruth text = true) :
    ∃ value, truthValue text = .ok value := by
  have known : ∀ word ∈ ["yes", "Yes", "YES", "no", "No", "NO", "true", "True", "TRUE", "false",
      "False", "FALSE", "on", "On", "ON", "off", "Off", "OFF"], (truthValue word).isOk = true := by
    decide +kernel
  have read := known text (List.contains_iff_mem.1 truth)
  cases value : truthValue text with
  | ok b => exact ⟨b, rfl⟩
  | error fault => rw [value] at read; cases read

theorem isOrdinary_of_readNumeral {base : Nat} {cs : List Char} {fault : Fault}
    (failed : readNumeral base cs = .error fault) : fault.isOrdinary = true := by
  unfold readNumeral at failed
  cases read : readInteger base (String.ofList cs) with
  | ok n => rw [read] at failed; cases failed
  | error wrong => rw [read] at failed; cases failed; rfl

theorem isOrdinary_of_magnitude {cs : List Char} {fault : Fault} (some : cs ≠ [])
    (failed : magnitude cs = .error fault) : fault.isOrdinary = true := by
  unfold magnitude at failed
  split at failed
  · exact absurd rfl some
  · cases failed
  · exact isOrdinary_of_readNumeral failed
  · exact isOrdinary_of_readNumeral failed
  · exact isOrdinary_of_readNumeral failed
  · split at failed
    · cases parts : (cs.splitOn ':').mapM (readNumeral 10) with
      | ok ns => rw [parts] at failed; cases failed
      | error wrong =>
        rw [parts] at failed
        cases failed
        obtain ⟨part, _, missed⟩ := exists_error_of_mapM parts
        exact isOrdinary_of_readNumeral missed
    · exact isOrdinary_of_readNumeral failed

section Signs

variable {cs rest : List Char} {first : Char}

theorem takeSign_eq_unsigned (cs : List Char) : (takeSign cs).2 = Form.unsigned cs := by
  unfold takeSign
  split
  · rfl
  · rfl
  · next noMinus noPlus =>
    unfold Form.unsigned
    split
    · next rest => exact absurd rfl (noPlus rest)
    · next rest => exact absurd rfl (noMinus rest)
    · rfl

theorem unsigned_eq_or (cs : List Char) :
    (∃ sign, (sign = '+' ∨ sign = '-') ∧ cs = sign :: Form.unsigned cs) ∨ Form.unsigned cs = cs := by
  unfold Form.unsigned
  split
  · exact .inl ⟨'+', .inl rfl, rfl⟩
  · exact .inl ⟨'-', .inr rfl, rfl⟩
  · exact .inr rfl

theorem unsigned_sublist (cs : List Char) : (Form.unsigned cs).Sublist cs := by
  unfold Form.unsigned
  split
  · exact List.sublist_cons_self _ _
  · exact List.sublist_cons_self _ _
  · exact List.Sublist.refl _

theorem unsigned_of_isDigit (digit : Form.isDigit first = true) :
    Form.unsigned (first :: rest) = first :: rest := by
  unfold Form.unsigned
  split
  · next same => cases same; cases digit
  · next same => cases same; cases digit
  · rfl

theorem unsigned_filter (shown : Form.unsigned cs = first :: rest)
    (digit : Form.isDigit first = true) :
    Form.unsigned (cs.filter (· != '_')) = first :: rest.filter (· != '_') := by
  have kept : (first != '_') = true := by
    rw [bne_iff_ne]
    rintro rfl
    cases digit
  rcases unsigned_eq_or cs with ⟨sign, rfl | rfl, whole⟩ | whole
  · rw [whole, shown]
    simp [kept, Form.unsigned]
  · rw [whole, shown]
    simp [kept, Form.unsigned]
  · rw [← whole, shown, List.filter_cons, if_pos kept]
    exact unsigned_of_isDigit digit

theorem exists_digit_of_isInteger (form : Form.isInteger cs = true) :
    ∃ first rest, Form.unsigned cs = first :: rest ∧ Form.isDigit first = true := by
  unfold Form.isInteger at form
  split at form
  · next shown => exact ⟨_, _, shown, rfl⟩
  · next shown => exact ⟨_, _, shown, rfl⟩
  · next shown => exact ⟨_, _, shown, rfl⟩
  · next shown => exact ⟨_, _, shown, rfl⟩
  · next first rest _ _ _ _ shown =>
    rw [Bool.and_eq_true, Bool.and_eq_true] at form
    exact ⟨first, rest, shown, form.1.1⟩
  · cases form

end Signs

theorem isOrdinary_of_integerValue {text : String} {fault : Fault}
    (form : Form.isInteger text.toList = true) (failed : integerValue text = .error fault) :
    fault.isOrdinary = true := by
  obtain ⟨first, rest, shown, digit⟩ := exists_digit_of_isInteger form
  have kept : (takeSign (withoutMarks text)).2 = first :: rest.filter (· != '_') := by
    rw [takeSign_eq_unsigned]
    exact unsigned_filter shown digit
  have some : (withoutMarks text).isEmpty = false := by
    rw [Bool.eq_false_iff, ne_eq, List.isEmpty_iff]
    intro none
    rw [none] at kept
    cases kept
  rw [integerValue] at failed
  simp only [some, Bool.false_eq_true, ↓reduceIte, kept] at failed
  cases size : magnitude (first :: rest.filter (· != '_')) with
  | ok n => rw [size] at failed; cases failed
  | error wrong =>
    rw [size] at failed
    cases failed
    exact isOrdinary_of_magnitude (List.cons_ne_nil _ _) size

def isSixtiesChar (c : Char) : Bool :=
  Form.isDigitMark c || c == ':' || c == '.' || c == '+' || c == '-'

/-- A number in base 60 with so many parts that the power of the first is no real number. -/
structure IsOverlong (cs : List Char) : Prop where
  chars : ∀ c ∈ cs, isSixtiesChar c = true
  parts : 174 ≤ cs.count ':'

theorem ofInt_power_ne_infinite {k : Nat} (small : k < 174) (negative : Bool) :
    Binary64.ofInt (Nat.pow 60 k) ≠ .infinite negative := by
  have all : ∀ k < 174, ∀ negative, Binary64.ofInt (Nat.pow 60 k) ≠ .infinite negative := by
    decide +kernel
  exact all k small negative

theorem powerOfSixty_of_sexagesimalReal {k : Nat} {parts : List Binary64} {sum : Binary64}
    {fault : Fault} (failed : sexagesimalReal (Nat.pow 60 k) parts sum = .error fault) :
    174 < k + parts.length := by
  induction parts generalizing k sum with
  | nil => cases failed
  | cons part rest ih =>
    rw [sexagesimalReal] at failed
    split at failed
    · next negative endless =>
      have large : 174 ≤ k := by
        by_contra small
        exact ofInt_power_ne_infinite (by omega) negative endless
      rw [List.length_cons]
      omega
    · have later : sexagesimalReal (Nat.pow 60 (k + 1)) rest _ = .error fault := failed
      have := ih later
      rw [List.length_cons]
      omega

theorem isOrdinary_of_readDecimal {cs : List Char} {fault : Fault}
    (failed : readDecimal cs = .error fault) : fault.isOrdinary = true := by
  unfold readDecimal at failed
  split at failed
  · cases failed
  · cases failed
    rfl

theorem realMagnitude_error {cs : List Char} {fault : Fault}
    (failed : realMagnitude cs = .error fault) :
    fault.isOrdinary = true ∨ 174 ≤ cs.count ':' := by
  unfold realMagnitude at failed
  split at failed
  · cases read : (cs.splitOn ':').mapM readDecimal with
    | error wrong =>
      rw [read] at failed
      cases failed
      obtain ⟨part, _, missed⟩ := exists_error_of_mapM read
      exact .inl (isOrdinary_of_readDecimal missed)
    | ok parts =>
      simp only [read, bind, Except.bind] at failed
      have many := powerOfSixty_of_sexagesimalReal (k := 0) failed
      rw [List.length_reverse, length_of_mapM read, length_splitOn_colon] at many
      exact .inr (by omega)
  · exact .inl (isOrdinary_of_readDecimal failed)

section Lower

open Text

theorem lowerChar_ne_nil (c : Char) : lowerChar c ≠ [] := by
  unfold lowerChar
  dsimp only
  split
  · exact List.cons_ne_nil _ _
  · split
    · exact List.cons_ne_nil _ _
    · exact List.cons_ne_nil _ _

theorem ofNat_ne_colon {n : Nat} (large : 0x61 ≤ n) : Char.ofNat n ≠ ':' := by
  intro same
  by_cases valid : n.isValidChar
  · rw [Char.ofNat, dif_pos valid] at same
    have code : n = 58 := congrArg Char.toNat same
    omega
  · rw [Char.ofNat, dif_neg valid] at same
    exact absurd same (by decide)

theorem count_lowerChar (c : Char) : (lowerChar c).count ':' = [c].count ':' := by
  have letters : ∀ run ∈ capitalRuns, 0x41 ≤ run.1 ∧ 0x61 ≤ run.2.2.2 := by decide +kernel
  unfold lowerChar
  dsimp only
  split
  · next dotted =>
    have other : c ≠ ':' := by rintro rfl; exact absurd dotted (by decide)
    simp [other]
  · split
    · next first last step small found =>
      obtain ⟨capital, letter⟩ := letters _ (List.mem_of_find?_eq_some found)
      have within := List.find?_some found
      simp only [Bool.and_eq_true, decide_eq_true_eq] at within
      have other : c ≠ ':' := by
        rintro rfl
        exact absurd (Nat.le_trans capital within.1.1) (by decide)
      have lower : Char.ofNat (small + (c.toNat - first)) ≠ ':' :=
        ofNat_ne_colon (Nat.le_trans letter (Nat.le_add_right _ _))
      simp [other, lower]
    · rfl

theorem count_lowerCase (cs : List Char) : (lowerCase cs).count ':' = cs.count ':' := by
  induction cs with
  | nil => rfl
  | cons c rest ih =>
    have whole : lowerCase (c :: rest) = lowerChar c ++ lowerCase rest := rfl
    rw [whole, List.count_append, count_lowerChar, ih, ← List.count_append, List.singleton_append]

theorem lowerCase_ne_nil {cs : List Char} (some : cs ≠ []) : lowerCase cs ≠ [] := by
  obtain ⟨c, rest, rfl⟩ := List.exists_cons_of_ne_nil some
  rw [lowerCase, List.flatMap_cons]
  exact List.append_ne_nil_of_left_ne_nil (lowerChar_ne_nil c) _

end Lower

section Real

variable {cs : List Char}

theorem isSixtiesChar_of_isDigitMark {c : Char} (digit : Form.isDigitMark c = true) :
    isSixtiesChar c = true := by
  simp [isSixtiesChar, digit]

theorem isDigitMark_of_isDigit {c : Char} (digit : Form.isDigit c = true) :
    Form.isDigitMark c = true := by
  simp [Form.isDigitMark, digit]

theorem ne_colon_of_isDigitMark {c : Char} (digit : Form.isDigitMark c = true) : c ≠ ':' := by
  rintro rfl
  cases digit

theorem colon_not_mem_of_isExponent (form : Form.isExponent cs = true) : ':' ∉ cs := by
  unfold Form.isExponent at form
  split at form
  · simp
  · next mark sign digits =>
    simp only [Form.isNonEmpty, Bool.and_eq_true, Bool.or_eq_true, beq_iff_eq, List.all_eq_true]
      at form
    obtain ⟨⟨letter, signed⟩, _, all⟩ := form
    intro found
    rcases List.mem_cons.1 found with rfl | found
    · simp at letter
    rcases List.mem_cons.1 found with rfl | found
    · simp at signed
    · cases all _ found
  · cases form

theorem colon_not_mem_of_isFraction (form : Form.isFraction cs = true) : ':' ∉ cs := by
  rw [← List.takeWhile_append_dropWhile (p := Form.isDigitMark) (l := cs), List.mem_append, not_or]
  exact ⟨fun found => ne_colon_of_isDigitMark (List.mem_takeWhile_imp found) rfl,
    colon_not_mem_of_isExponent form⟩

theorem colon_not_mem_of_isInfinity (form : Form.isInfinity cs = true) : ':' ∉ cs := by
  simp only [Form.isInfinity, List.any_cons, List.any_nil, Bool.or_false, Bool.or_eq_true,
    beq_iff_eq] at form
  rcases form with rfl | rfl | rfl <;> decide

theorem colon_not_mem_of_isNotNumber (form : Form.isNotNumber cs = true) : ':' ∉ cs := by
  simp only [Form.isNotNumber, List.any_cons, List.any_nil, Bool.or_false, Bool.or_eq_true,
    beq_iff_eq] at form
  rcases form with rfl | rfl | rfl <;> decide

theorem isDigit_of_isSixtieth {part : List Char} (form : Form.isSixtieth part = true) :
    ∀ c ∈ part, Form.isDigit c = true := by
  unfold Form.isSixtieth at form
  split at form
  · simpa using form
  · next a b =>
    simp only [Bool.and_eq_true, decide_eq_true_eq] at form
    obtain ⟨⟨low, high⟩, digit⟩ := form
    have first : Form.isDigit a = true := by
      simp only [Form.isDigit, Bool.and_eq_true, decide_eq_true_eq]
      exact ⟨low, Char.le_trans high (by decide)⟩
    simp [first, digit]
  · cases form

theorem splitOn_colon (cs : List Char) :
    cs.splitOn ':' = cs.takeWhile (· != ':') :: Form.colonParts cs := by
  induction cs with
  | nil => rfl
  | cons c rest ih =>
    rw [Form.colonParts, List.splitOn_cons_eq_if_modifyHead]
    by_cases colon : c = ':'
    · simp [colon]
    · simp [colon, ih]

theorem eq_colon_or_mem_splitOn {c : Char} (found : c ∈ cs) :
    c = ':' ∨ ∃ part ∈ cs.splitOn ':', c ∈ part := by
  induction cs with
  | nil => cases found
  | cons d rest ih =>
    rw [List.splitOn_cons_eq_if_modifyHead]
    by_cases colon : d = ':'
    · rcases List.mem_cons.1 found with rfl | later
      · exact .inl colon
      · simpa [colon] using ih later
    · rw [splitOn_colon] at ih ⊢
      simp only [beq_iff_eq, colon, ↓reduceIte, List.modifyHead_cons, List.mem_cons,
        or_and_right, exists_or, exists_eq_left] at ih ⊢
      rcases List.mem_cons.1 found with rfl | later
      · exact .inr (.inl (.inl rfl))
      · rcases ih later with same | here | there
        · exact .inl same
        · exact .inr (.inl (.inr here))
        · exact .inr (.inr there)

theorem isSixtiesChar_of_isSexagesimal {whole after : List Char}
    (form : Form.isSexagesimal whole after = true) :
    (∀ c ∈ whole, isSixtiesChar c = true) ∧ ∀ c ∈ after, isSixtiesChar c = true := by
  simp only [Form.isSexagesimal, Bool.and_eq_true, List.all_eq_true] at form
  obtain ⟨⟨⟨first, parts⟩, _⟩, fraction⟩ := form
  refine ⟨fun c found => ?_, fun c found => isSixtiesChar_of_isDigitMark (fraction c found)⟩
  rcases eq_colon_or_mem_splitOn found with rfl | ⟨part, listed, inside⟩
  · rfl
  · rw [splitOn_colon] at listed
    rcases List.mem_cons.1 listed with rfl | later
    · exact isSixtiesChar_of_isDigitMark (first c inside)
    · exact isSixtiesChar_of_isDigitMark
        (isDigitMark_of_isDigit (isDigit_of_isSixtieth (parts part later) c inside))

theorem mem_unsigned {c : Char} (found : c ∈ cs) : c = '+' ∨ c = '-' ∨ c ∈ Form.unsigned cs := by
  rcases unsigned_eq_or cs with ⟨sign, signed, whole⟩ | whole
  · rw [whole] at found
    rcases List.mem_cons.1 found with rfl | later
    · exact signed.elim .inl fun minus => .inr (.inl minus)
    · exact .inr (.inr later)
  · rw [whole]
    exact .inr (.inr found)

/-- A real number has a colon only if it is written in base 60. -/
theorem exists_sexagesimal_of_isReal (form : Form.isReal cs = true) (colon : ':' ∈ cs) :
    ∃ first whole after, Form.unsigned cs = first :: (whole ++ '.' :: after) ∧
      Form.isDigit first = true ∧ Form.isSexagesimal whole after = true := by
  have unsigned : ':' ∈ Form.unsigned cs := by simpa using mem_unsigned colon
  unfold Form.isReal at form
  split at form
  · next first rest =>
    exfalso
    simp only [Bool.or_eq_true, Bool.and_eq_true] at form
    rcases form with (⟨digit, fraction⟩ | infinity) | none
    · simp only [List.mem_cons, Char.reduceEq, false_or] at colon
      rcases colon with rfl | later
      · cases digit
      · exact colon_not_mem_of_isFraction fraction later
    · exact colon_not_mem_of_isInfinity infinity colon
    · exact colon_not_mem_of_isNotNumber none colon
  · split at form
    · exact absurd unsigned (colon_not_mem_of_isInfinity form)
    · next first rest _ shown =>
      dsimp only at form
      split at form
      · next after parted =>
        have whole : rest = rest.takeWhile (· != '.') ++ '.' :: after := by
          rw [← parted, List.takeWhile_append_dropWhile]
        simp only [Bool.and_eq_true, Bool.or_eq_true, List.all_eq_true] at form
        obtain ⟨digit, ⟨digits, fraction⟩ | sixtieths⟩ := form
        · -- In base 10 there is no place for a colon, neither before the point nor behind it.
          exfalso
          rw [shown, whole] at unsigned
          simp only [List.mem_cons, List.mem_append, Char.reduceEq, false_or] at unsigned
          rcases unsigned with rfl | before | later
          · cases digit
          · exact ne_colon_of_isDigitMark (digits _ before) rfl
          · exact colon_not_mem_of_isFraction fraction later
        · exact ⟨first, _, after, shown.trans (congrArg _ whole), digit, sixtieths⟩
      · cases form
    · cases form

theorem isSixtiesChar_of_isReal (form : Form.isReal cs = true) (colon : ':' ∈ cs) :
    ∀ c ∈ cs, isSixtiesChar c = true := by
  obtain ⟨first, whole, after, shown, digit, sixtieths⟩ := exists_sexagesimal_of_isReal form colon
  obtain ⟨before, later⟩ := isSixtiesChar_of_isSexagesimal sixtieths
  intro c found
  rcases mem_unsigned found with rfl | rfl | inside
  · rfl
  · rfl
  · rw [shown] at inside
    simp only [List.mem_cons, List.mem_append] at inside
    rcases inside with rfl | here | rfl | there
    · exact isSixtiesChar_of_isDigitMark (isDigitMark_of_isDigit digit)
    · exact before c here
    · rfl
    · exact later c there

theorem point_mem_of_isReal (form : Form.isReal cs = true) : '.' ∈ cs := by
  have inside : (Form.unsigned cs).Sublist cs := unsigned_sublist cs
  unfold Form.isReal at form
  split at form
  · exact List.mem_cons_self
  · split at form
    · next shown => exact inside.subset (shown ▸ List.mem_cons_self)
    · next first rest _ shown =>
      dsimp only at form
      split at form
      · next after parted =>
        have point : '.' ∈ rest :=
          (List.dropWhile_sublist _).subset (parted ▸ List.mem_cons_self)
        exact inside.subset (shown ▸ List.mem_cons_of_mem _ point)
      · cases form
    · cases form

end Real

theorem count_takeSign_le (text : String) :
    (takeSign (Text.lowerCase (withoutMarks text))).2.count ':' ≤ text.toList.count ':' := by
  calc (takeSign (Text.lowerCase (withoutMarks text))).2.count ':'
      ≤ (Text.lowerCase (withoutMarks text)).count ':' := by
        rw [takeSign_eq_unsigned]
        exact (unsigned_sublist _).count_le ':'
    _ = (withoutMarks text).count ':' := count_lowerCase _
    _ ≤ text.toList.count ':' := List.filter_sublist.count_le ':'

theorem realMagnitude_of_realValue {text : String} {fault : Fault}
    (form : Form.isReal text.toList = true) (failed : realValue text = .error fault) :
    realMagnitude (takeSign (Text.lowerCase (withoutMarks text))).2 = .error fault := by
  have inside : '.' ∈ withoutMarks text := List.mem_filter.2 ⟨point_mem_of_isReal form, rfl⟩
  have some : (Text.lowerCase (withoutMarks text)).isEmpty = false := by
    rw [Bool.eq_false_iff, ne_eq, List.isEmpty_iff]
    exact lowerCase_ne_nil (List.ne_nil_of_mem inside)
  rw [realValue] at failed
  simp only [some, Bool.false_eq_true, ↓reduceIte] at failed
  split at failed
  · cases failed
  · split at failed
    · cases failed
    · cases size : realMagnitude (takeSign (Text.lowerCase (withoutMarks text))).2 with
      | ok value => rw [size] at failed; cases failed
      | error wrong => rw [size] at failed; cases failed; rfl

theorem realValue_error {text : String} {fault : Fault} (form : Form.isReal text.toList = true)
    (failed : realValue text = .error fault) :
    fault.isOrdinary = true ∨ IsOverlong text.toList := by
  rcases realMagnitude_error (realMagnitude_of_realValue form failed) with ordinary | many
  · exact .inl ordinary
  · have parts := Nat.le_trans many (count_takeSign_le text)
    have colon : ':' ∈ text.toList := List.count_pos_iff.1 (by omega)
    exact .inr ⟨isSixtiesChar_of_isReal form colon, parts⟩

theorem isOrdinary_of_timestampValue {text : String} {fault : Fault} {stamp : Timestamp}
    (read : Timestamp.read? (withoutFinalFeed text).toList = some stamp)
    (failed : timestampValue text = .error fault) : fault.isOrdinary = true := by
  simp only [timestampValue, read] at failed
  split at failed
  · cases checked : stamp.date.check with
    | ok date => rw [checked] at failed; cases failed
    | error wrong => rw [checked] at failed; cases failed; rfl
  · next time _ =>
    cases checked : (stamp.moment time).check with
    | ok moment => rw [checked] at failed; cases failed
    | error wrong => rw [checked] at failed; cases failed; rfl

theorem withoutFinalFeed_eq {text : String} (ended : text.toList.getLast? ≠ some '\n') :
    withoutFinalFeed text = text := by
  unfold withoutFinalFeed
  split
  · next rest reversed =>
    refine absurd ?_ ended
    rw [List.getLast?_eq_head?_reverse, reversed]
    rfl
  · rfl

theorem commonTag_inj {a b : String} : commonTag a = commonTag b ↔ a = b :=
  String.append_right_inj _

theorem scalarValue_bool (text : String) :
    scalarValue (commonTag "bool") (.text text) = (truthValue text).map .boolean := by
  simp [scalarValue, commonTag_inj, Functor.map]

theorem scalarValue_int (text : String) :
    scalarValue (commonTag "int") (.text text) = (integerValue text).map .integer := by
  simp [scalarValue, commonTag_inj, Functor.map]

theorem scalarValue_float (text : String) :
    scalarValue (commonTag "float") (.text text) = (realValue text).map .real := by
  simp [scalarValue, commonTag_inj, Functor.map]

theorem scalarValue_timestamp (text : String) :
    scalarValue (commonTag "timestamp") (.text text) = timestampValue text := by
  simp [scalarValue, commonTag_inj]

theorem scalarValue_str (value : ScalarText) :
    ∃ made, scalarValue (commonTag "str") value = .ok made := by
  cases value with
  | text content => exact ⟨.text content, by simp [scalarValue, commonTag_inj]⟩
  | broken codes => exact ⟨.brokenText codes, by simp [scalarValue, commonTag_inj, brokenValue]⟩

/-- What has the form of a type is at most at fault in an ordinary way, or is overlong. -/
theorem error_of_form {text : String} {fault : Fault} (ended : text.toList.getLast? ≠ some '\n')
    (failed : scalarValue (tagOfForm text) (.text text) = .error fault) :
    fault.isOrdinary = true ∨ IsOverlong text.toList := by
  have plain := withoutFinalFeed_eq ended
  have notFeed : (text == "\n") = false := by
    rw [beq_eq_false_iff_ne]
    rintro rfl
    exact ended rfl
  simp only [tagOfForm, notFeed, Bool.false_eq_true, ↓reduceIte, plain] at failed
  split at failed
  · cases failed
  split at failed
  · next truth =>
    obtain ⟨value, read⟩ := exists_truthValue truth
    rw [scalarValue_bool, read] at failed
    cases failed
  split at failed
  · next form =>
    rw [scalarValue_int] at failed
    exact .inl (isOrdinary_of_integerValue form (error_of_map failed))
  split at failed
  · next form =>
    rw [scalarValue_float] at failed
    exact realValue_error form (error_of_map failed)
  split at failed
  · next form =>
    obtain ⟨stamp, read⟩ := Option.isSome_iff_exists.1 (Option.isSome_of_any form)
    rw [← plain] at read
    rw [scalarValue_timestamp] at failed
    exact .inl (isOrdinary_of_timestampValue read failed)
  split at failed
  · cases failed
    exact .inl rfl
  split at failed
  · cases failed
    exact .inl rfl
  · cases failed

end SchemaScript.Yaml
