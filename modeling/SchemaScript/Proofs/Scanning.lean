import SchemaScript.Yaml.Lexer

/-!
What is read from the characters of a text. Whatever is read ends within the text, and its faults
are ordinary ones unless the text has an escape of eight digits.
-/

namespace SchemaScript.Yaml

/-- The text of an escape by eight digits begins somewhere in a text. -/
def HasLongEscape (text : List Char) : Prop := ['\\', 'U'] <:+: text

def Expected (text : List Char) (fault : Fault) : Prop :=
  fault.isOrdinary = true ∨ HasLongEscape text

/-- What comes of reading some of a text has a property, or the fault is expected. -/
def Safe {α : Type} (text : List Char) (good : α → Prop) : Except Fault α → Prop
  | .ok a => good a
  | .error fault => Expected text fault

abbrev Anything {α : Type} (_ : α) : Prop := True

namespace Safe

variable {α β : Type} {text : List Char} {good : α → Prop} {better : β → Prop}

theorem malformed : Safe text good (.error .malformed) := .inl rfl

theorem pure {a : α} (holds : good a) : Safe text good (Pure.pure a) := holds

theorem bind {read : Except Fault α} {next : α → Except Fault β} (safe : Safe text good read)
    (goes : ∀ a, good a → Safe text better (next a)) : Safe text better (read >>= next) := by
  cases read with
  | ok a => exact goes a safe
  | error fault => exact safe

theorem ite {c : Prop} [Decidable c] {first second : Except Fault α}
    (yes : c → Safe text good first) (no : ¬ c → Safe text good second) :
    Safe text good (if c then first else second) := by
  split
  · next holds => exact yes holds
  · next fails => exact no fails

theorem mono {read : Except Fault α} {other : α → Prop} (safe : Safe text good read)
    (implies : ∀ a, good a → other a) : Safe text other read := by
  cases read with
  | ok a => exact implies a safe
  | error fault => exact safe

end Safe

namespace Position

def Within (text : List Char) (position : Position) : Prop := position.rest <:+ text

variable {text : List Char} {position : Position}

theorem rest_next (position : Position) : position.next.rest = position.rest.tail := by
  unfold next
  split
  · next empty => rw [empty]; rfl
  · next c rest full =>
    rw [full]
    split
    · rfl
    · split <;> rfl

theorem exists_rest_eq (position : Position) {c : Char} (inside : c ≠ endMark)
    (read : position.current = c) : ∃ others, position.rest = c :: others := by
  unfold current at read
  cases rest : position.rest with
  | nil => rw [rest] at read; exact absurd read.symm inside
  | cons d others => rw [rest] at read; exact ⟨others, congrArg (· :: others) read⟩

namespace Within

theorem start (text : List Char) : (Position.start text).Within text := List.suffix_refl text

theorem next (within : position.Within text) : position.next.Within text := by
  rw [Within, rest_next]
  exact (List.tail_suffix _).trans within

theorem skip (within : position.Within text) (count : Nat) :
    (position.skip count).Within text := by
  induction count generalizing position with
  | zero => exact within
  | succ count ih => exact ih within.next

theorem takeWhile (within : position.Within text) (test : Char → Bool) :
    (position.takeWhile test).2.Within text := within.skip _

theorem skipWhile (within : position.Within text) (test : Char → Bool) :
    (position.skipWhile test).Within text := within.skip _

theorem skipSpaces (within : position.Within text) : position.skipSpaces.Within text :=
  within.skipWhile _

theorem skipSpacesTo (within : position.Within text) (column : Nat) :
    (position.skipSpacesTo column).Within text := within.skip _

theorem skipComment (within : position.Within text) : position.skipComment.Within text := by
  unfold Position.skipComment
  split
  · exact within.skipWhile _
  · exact within

theorem infix_of_prefix (within : position.Within text) {chars : List Char}
    (front : chars <+: position.rest) : chars <:+: text :=
  front.isInfix.trans within.isInfix

theorem mem (within : position.Within text) {c : Char} (inside : c ≠ endMark)
    (read : position.current = c) : c ∈ text := by
  obtain ⟨others, rest⟩ := position.exists_rest_eq inside read
  exact within.subset (rest ▸ List.mem_cons_self)

end Within

end Position

abbrev EndsWithin {α : Type} (text : List Char) (read : α × Position) : Prop :=
  read.2.Within text

namespace QuotedScalar

variable {text : List Char} {position : Position}

theorem breaks_safe (fuel : Nat) (within : position.Within text) :
    Safe text (EndsWithin text) (breaks fuel position) := by
  induction fuel generalizing position with
  | zero => exact within
  | succ fuel ih =>
    rw [breaks]
    split
    · exact .malformed
    · have blank := within.skipWhile fun c => c == ' ' || c == '\t'
      dsimp only
      split
      · exact (ih blank.next).bind fun _ ends => ends
      · exact blank

theorem spaces_safe (within : position.Within text) :
    Safe text (EndsWithin text) (spaces position) := by
  have blank := within.takeWhile fun c => c == ' ' || c == '\t'
  rw [spaces]
  dsimp only
  split
  · exact .malformed
  split
  · exact (breaks_safe _ blank.next).bind fun _ ends => ends
  · exact blank

theorem hexValue?_lt {c : Char} {n : Nat} (read : Text.hexValue? c = some n) : n < 16 := by
  unfold Text.hexValue? at read
  simp only [Bool.and_eq_true, decide_eq_true_eq, Char.le_def, UInt32.le_iff_toNat_le] at read
  split at read
  · next within =>
    have high : c.toNat ≤ 57 := within.2
    cases read
    omega
  split at read
  · next within =>
    have high : c.toNat ≤ 102 := within.2
    cases read
    omega
  split at read
  · next within =>
    have high : c.toNat ≤ 70 := within.2
    cases read
    omega
  · cases read

theorem foldl_hex_lt {digits : List Nat} (small : ∀ d ∈ digits, d < 16) (n : Nat) :
    digits.foldl (fun n d => n * 16 + d) n < (n + 1) * Nat.pow 16 digits.length := by
  induction digits generalizing n with
  | nil => exact (Nat.mul_one (n + 1)).symm ▸ Nat.lt_succ_self n
  | cons d rest ih =>
    obtain ⟨first, others⟩ := List.forall_mem_cons.1 small
    calc rest.foldl (fun n d => n * 16 + d) (n * 16 + d)
        < (n * 16 + d + 1) * Nat.pow 16 rest.length := ih others _
      _ ≤ (n + 1) * 16 * Nat.pow 16 rest.length := Nat.mul_le_mul_right _ (by omega)
      _ = (n + 1) * (Nat.pow 16 rest.length * 16) := by rw [Nat.mul_assoc, Nat.mul_comm 16]

theorem readCode_safe {width : Nat} (short : width ≤ 4) (position : Position) :
    Safe text Anything (readCode width position) := by
  have small : ∀ d ∈ (position.rest.take width).filterMap Text.hexValue?, d < 16 := by
    intro d listed
    obtain ⟨c, _, read⟩ := List.mem_filterMap.1 listed
    exact hexValue?_lt read
  have few : ((position.rest.take width).filterMap Text.hexValue?).length ≤ width :=
    Nat.le_trans (List.length_filterMap_le _ _) (List.length_take_le _ _)
  rw [readCode]
  generalize (position.rest.take width).filterMap Text.hexValue? = digits at small few ⊢
  have bound := foldl_hex_lt small 0
  have power : Nat.pow 16 digits.length ≤ 65536 :=
    Nat.pow_le_pow_right (by omega) (Nat.le_trans few short)
  refine .ite (fun _ => .malformed) fun _ => .ite (fun large => ?_) fun _ => ?_
  · omega
  · exact .ite (fun _ => .inl rfl) fun _ => trivial

theorem width_le_four {c : Char} {width : Nat} (wide : escapeWidth? c = some width)
    (other : c ≠ 'U') : width ≤ 4 := by
  unfold escapeWidth? at wide
  split at wide
  · cases wide
    decide
  · cases wide
    decide
  · exact absurd rfl other
  · cases wide

theorem hasLongEscape (mark : '\\' :: position.rest <:+: text) (long : position.current = 'U') :
    HasLongEscape text := by
  obtain ⟨others, rest⟩ := position.exists_rest_eq (by decide) long
  rw [rest] at mark
  exact (List.prefix_append ['\\', 'U'] others).isInfix.trans mark

theorem escape_safe (within : position.Within text)
    (mark : '\\' :: position.rest <:+: text) : Safe text (EndsWithin text) (escape position) := by
  rw [escape]
  dsimp only
  split
  · exact within.next
  · next width _ wide =>
    refine Safe.bind (?_ : Safe text Anything _) fun _ _ => within.skip _
    by_cases long : position.current = 'U'
    · cases read : readCode width position.next with
      | ok code => trivial
      | error fault => exact .inr (hasLongEscape mark long)
    · exact readCode_safe (width_le_four wide long) _
  · split
    · exact (breaks_safe _ within.next).bind fun _ ends => ends
    · exact .malformed

theorem body_safe (double : Bool) (fuel : Nat) (within : position.Within text) :
    Safe text (EndsWithin text) (body double fuel position) := by
  induction fuel generalizing position with
  | zero => exact .malformed
  | succ fuel ih =>
    rw [body]
    generalize (if double = true then doubleMark else singleMark) = quote
    dsimp only
    split
    · exact (ih (within.skip 2)).bind fun _ ends => ends
    split
    · exact within.next
    split
    · next escaped =>
      rw [Bool.and_eq_true, beq_iff_eq] at escaped
      have mark : '\\' :: position.next.rest <:+: text := by
        obtain ⟨others, rest⟩ := position.exists_rest_eq (by decide) escaped.2
        rw [Position.rest_next, rest]
        exact rest ▸ within.isInfix
      exact (escape_safe within.next mark).bind fun _ ends => (ih ends).bind fun _ ends => ends
    split
    · exact (spaces_safe within).bind fun _ ends => (ih ends).bind fun _ ends => ends
    · exact (ih within.next).bind fun _ ends => ends

theorem scan_safe (within : position.Within text) :
    Safe text (EndsWithin text) (scan position) :=
  body_safe _ _ within.next

end QuotedScalar

namespace BlockScalar

variable {text : List Char} {position : Position}

theorem increment?_safe (c : Char) : Safe text Anything (increment? c) := by
  unfold increment?
  split
  · exact .malformed
  · split <;> trivial

theorem header_safe (within : position.Within text) :
    Safe text (EndsWithin text) (header position) := by
  rw [header]
  refine Safe.bind (?_ : Safe text (EndsWithin text) _) fun read ends => ?_
  · split
    · refine (increment?_safe _).bind fun increment _ => ?_
      cases increment with
      | some n => exact within.skip 2
      | none => exact within.next
    · refine (increment?_safe _).bind fun increment _ => ?_
      cases increment with
      | none => exact within
      | some n =>
        dsimp only
        split
        · exact within.skip 2
        · exact within.next
  · dsimp only
    split
    · exact ends
    · exact .malformed

theorem headerEnd_safe (within : position.Within text) :
    Safe text (Position.Within text) (headerEnd position) := by
  have blank := within.skipSpaces.skipComment
  rw [headerEnd]
  split
  · exact .malformed
  · refine Safe.pure ?_
    split
    · exact blank.next
    · exact blank

theorem leadingLines_within (fuel deepest : Nat) (within : position.Within text) :
    (leadingLines fuel deepest position).2.2.Within text := by
  induction fuel generalizing deepest position with
  | zero => exact within
  | succ fuel ih =>
    rw [leadingLines]
    split
    · exact ih _ within.next
    split
    · exact ih _ within.next
    · exact within

theorem blankLines_within (indent fuel : Nat) (within : position.Within text) :
    (blankLines indent fuel position).2.Within text := by
  induction fuel generalizing position with
  | zero => exact within
  | succ fuel ih =>
    have spaces := within.skipSpacesTo indent
    rw [blankLines]
    dsimp only
    split
    · exact ih spaces.next
    · exact spaces

theorem lines_within (folded : Bool) (indent fuel : Nat) (lastBreak blank : List Char)
    (within : position.Within text) :
    (lines folded indent fuel lastBreak blank position).position.Within text := by
  induction fuel generalizing lastBreak blank position with
  | zero => exact within
  | succ fuel ih =>
    have line := within.takeWhile (!endsLine ·)
    rw [lines]
    split
    · generalize position.takeWhile (!endsLine ·) = taken at line ⊢
      obtain ⟨chars, stop⟩ := taken
      have past : (if isBreak stop.current = true then stop.next else stop).Within text := by
        split
        · exact line.next
        · exact line
      have after := blankLines_within indent (stop.rest.length + 1) past
      dsimp only
      generalize blankLines indent (stop.rest.length + 1)
        (if isBreak stop.current = true then stop.next else stop) = read at after ⊢
      obtain ⟨blankAfter, next⟩ := read
      by_cases goesOn : (next.column == indent && next.current != endMark) = true
      · simp only [goesOn, ↓reduceIte]
        exact ih _ _ after
      · simp only [goesOn, Bool.false_eq_true, ↓reduceIte]
        exact after
    · exact within

theorem scan_safe (parent : Int) (within : position.Within text) :
    Safe text (EndsWithin text) (scan parent position) := by
  rw [scan]
  refine (header_safe within.next).bind fun read ends => ?_
  refine (headerEnd_safe ends).bind fun start within => ?_
  refine Safe.pure (lines_within _ _ _ _ _ ?_)
  split
  · exact leadingLines_within _ _ within
  · exact blankLines_within _ _ within

end BlockScalar

namespace PlainScalar

variable {text : List Char} {position : Position} {inFlow : Bool}

theorem run_begins (inFlow : Bool) (chars : List Char) : run inFlow chars <+: chars := by
  induction chars with
  | nil => exact List.prefix_refl []
  | cons c rest ih =>
    rw [run]
    split
    · exact List.nil_prefix
    · exact (List.prefix_cons_inj c).2 ih

theorem endsWord_of_mem_run {chars : List Char} {c : Char} (found : c ∈ run inFlow chars) :
    endsWord c = false := by
  induction chars with
  | nil => cases found
  | cons d rest ih =>
    rw [run] at found
    split at found
    · cases found
    · next goesOn =>
      rcases List.mem_cons.1 found with rfl | later
      · simp only [stops, Bool.or_eq_true, not_or, Bool.not_eq_true] at goesOn
        exact goesOn.1.1
      · exact ih later

theorem blankLines_within (fuel : Nat) (within : position.Within text) :
    (blankLines fuel position).2.Within text := by
  induction fuel generalizing position with
  | zero => exact within
  | succ fuel ih =>
    rw [blankLines]
    split
    · exact ih within.next
    split
    · split
      · exact within.next
      · exact ih within.next
    · exact within

theorem gap_within (within : position.Within text) : (gap position).position.Within text := by
  have blank := within.takeWhile (· == ' ')
  rw [gap]
  dsimp only
  split
  · split
    · exact blank.next
    · have lines := blankLines_within ((position.takeWhile (· == ' ')).2.rest.length + 1) blank.next
      split
      · next found => rw [found] at lines; exact lines
      · next found => rw [found] at lines; exact lines
  · exact blank

theorem lines_within (indent fuel : Nat) (before : List Char) (afterBreak : Bool)
    (within : position.Within text) :
    (lines inFlow indent fuel before afterBreak position).position.Within text := by
  induction fuel generalizing before afterBreak position with
  | zero => exact within
  | succ fuel ih =>
    rw [lines]
    generalize (if position.current == '#' then [] else run inFlow position.rest) = chars
    dsimp only
    split
    · exact within
    · have past := gap_within (within.skip chars.length)
      split
      · exact past
      · exact ih _ _ past

theorem scan_within (indent : Nat) (within : position.Within text) :
    (scan inFlow indent position).position.Within text :=
  lines_within _ _ _ _ within

end PlainScalar

namespace Property

variable {text : List Char} {position : Position}

theorem word_safe (within : position.Within text) :
    Safe text (EndsWithin text) (word position) := by
  rw [word]
  dsimp only
  split
  · exact .malformed
  · exact within.takeWhile _

theorem anchor_safe (within : position.Within text) :
    Safe text (EndsWithin text) (anchor position) := by
  refine (word_safe within.next).bind fun read ends => ?_
  dsimp only
  split
  · exact ends
  · exact .malformed

theorem escapedBytes_safe (fuel : Nat) (within : position.Within text) :
    Safe text (EndsWithin text) (escapedBytes fuel position) := by
  induction fuel generalizing position with
  | zero => exact within
  | succ fuel ih =>
    rw [escapedBytes]
    split
    · split
      · exact .malformed
      · exact (ih (within.skip 3)).bind fun _ ends => ends
    · exact within

theorem uriChars_safe (fuel : Nat) (within : position.Within text) :
    Safe text (EndsWithin text) (uriChars fuel position) := by
  induction fuel generalizing position with
  | zero => exact within
  | succ fuel ih =>
    rw [uriChars]
    split
    · refine (escapedBytes_safe _ within).bind fun read ends => ?_
      dsimp only
      split
      · exact .malformed
      · exact (ih ends).bind fun _ ends => ends
    split
    · exact (ih within.next).bind fun _ ends => ends
    · exact within

theorem uri_safe (within : position.Within text) :
    Safe text (EndsWithin text) (uri position) := by
  refine (uriChars_safe _ within).bind fun read ends => ?_
  dsimp only
  split
  · exact .malformed
  · exact ends

theorem handle_safe (within : position.Within text) :
    Safe text (EndsWithin text) (handle position) := by
  rw [handle]
  split
  · exact .malformed
  split
  · exact within.next
  · dsimp only
    split
    · exact (within.next.takeWhile _).next
    · exact .malformed

theorem tag_safe (within : position.Within text) :
    Safe text (fun read => EndsWithin text read ∧ ∃ handle suffix, read.1 = .tag handle suffix)
      (tag position) := by
  refine Safe.bind (?_ : Safe text
    (fun read => EndsWithin text read ∧ ∃ handle suffix, read.1 = .tag handle suffix) _)
    fun read tagged => ?_
  · dsimp only
    split
    · refine (uri_safe (within.skip 2)).bind fun read ends => ?_
      split
      · exact .malformed
      · exact ⟨ends.next, _, _, rfl⟩
    split
    · exact ⟨within.next, _, _, rfl⟩
    split
    · refine (handle_safe within).bind fun _ ends => ?_
      exact (uri_safe ends).bind fun _ ends => ⟨ends, _, _, rfl⟩
    · exact (uri_safe within.next).bind fun _ ends => ⟨ends, _, _, rfl⟩
  · dsimp only
    split
    · exact tagged
    · exact .malformed

theorem number_safe (within : position.Within text) :
    Safe text (EndsWithin text) (number position) := by
  rw [number]
  dsimp only
  split
  · exact .malformed
  split
  · exact .inl rfl
  · exact within.takeWhile _

theorem version_safe (within : position.Within text) :
    Safe text (EndsWithin text) (version position) := by
  refine (number_safe within.skipSpaces).bind fun major ends => ?_
  dsimp only
  split
  · exact .malformed
  · refine (number_safe ends.next).bind fun minor ends => ?_
    split
    · exact ends
    · exact .malformed

theorem tagDirective_safe (within : position.Within text) :
    Safe text (EndsWithin text) (tagDirective position) := by
  refine (handle_safe within.skipSpaces).bind fun handle ends => ?_
  dsimp only
  split
  · exact .malformed
  · refine (uri_safe ends.skipSpaces).bind fun lead ends => ?_
    split
    · exact ends
    · exact .malformed

theorem directive_safe (within : position.Within text) :
    Safe text (EndsWithin text) (directive position) := by
  refine (word_safe within.next).bind fun name ends => ?_
  dsimp only
  split
  · exact .malformed
  · refine Safe.bind (?_ : Safe text (EndsWithin text) _) fun read ends => ?_
    · split
      · exact version_safe ends
      split
      · exact tagDirective_safe ends
      · exact ends.skipWhile _
    · have blank := ends.skipSpaces.skipComment
      split
      · exact .malformed
      · refine Safe.pure ?_
        dsimp only [EndsWithin]
        split
        · exact blank.next
        · exact blank

end Property

end SchemaScript.Yaml
