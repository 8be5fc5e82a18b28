import SchemaScript.Proofs.Layout
import SchemaScript.Proofs.Reading

/-!
Lists of literals, with commas between them. What is written can be read back together with what
stands behind it, as long as that does not look like more of the same, and nothing else is read as a
list of literals. So a literal tells its own end and its text.
-/

namespace SchemaScript.Sql

namespace Reader

variable {α : Type}

def literals : Reader (List String) := do
  if (← get).head? = some quoteMark then
    let first ← literal
    let more ← eachAfter ',' literal
    return first :: more
  else return []

theorem of_run_text {expected : String} {cs rest : List Char} {done : Unit}
    (reads : (text expected).run cs = some (done, rest)) : cs = expected.toList ++ rest := by
  change (cs.dropPrefix? expected.toList).map ((), ·) = some (done, rest) at reads
  obtain ⟨_, dropped, same⟩ := Option.map_eq_some_iff.1 reads
  obtain ⟨front, rfl, isExpected⟩ := List.dropPrefix?_eq_some_iff.1 dropped
  rw [beq_iff_eq.1 isExpected, (Prod.mk.inj same).2]

theorem of_closeLiteral {cs inside rest : List Char}
    (closed : closeLiteral cs = some (inside, rest)) :
    cs = doubleMarks inside ++ quoteMark :: rest ∧ rest.head? ≠ some quoteMark := by
  fun_induction closeLiteral cs generalizing inside with
  | case1 => cases closed
  | case2 =>
    cases closed
    exact ⟨rfl, by simp⟩
  | case3 left ih =>
    obtain ⟨⟨more, _⟩, later, same⟩ := Option.map_eq_some_iff.1 closed
    cases same
    obtain ⟨rfl, clear⟩ := ih later
    exact ⟨by simp [doubleMarks], clear⟩
  | case4 d left other =>
    cases closed
    exact ⟨rfl, by simpa using other⟩
  | case5 c left other ih =>
    obtain ⟨⟨more, _⟩, later, same⟩ := Option.map_eq_some_iff.1 closed
    cases same
    obtain ⟨rfl, clear⟩ := ih later
    exact ⟨by simp [doubleMarks, other], clear⟩

theorem of_run_literal {cs rest : List Char} {content : String}
    (reads : literal.run cs = some (content, rest)) :
    cs = literalChars content.toList ++ rest ∧ rest.head? ≠ some quoteMark := by
  rw [literal, StateT.run_bind] at reads
  obtain ⟨⟨_, behind⟩, opened, closes⟩ := Option.bind_eq_some_iff.1 reads
  obtain rfl := of_run_text opened
  rw [StateT.run_map] at closes
  obtain ⟨⟨inside, _⟩, closed, same⟩ := Option.map_eq_some_iff.1 closes
  cases same
  obtain ⟨rfl, clear⟩ := of_closeLiteral closed
  exact ⟨by simp [literalChars, quoteMark], clear⟩

/-- What is known behind an item holds behind all items, if it holds where there is none. -/
theorem of_run_eachAfter {mark : Char} {item : Reader α} {written : α → List Char}
    {Follows : List Char → Prop}
    (reads : ∀ cs first rest, item.run cs = some (first, rest) →
      cs = written first ++ rest ∧ Follows rest)
    {cs rest : List Char} {items : List α} (start : Follows cs)
    (all : (eachAfter mark item).run cs = some (items, rest)) :
    cs = (items.flatMap fun first => mark :: written first) ++ rest ∧ Follows rest ∧
      rest.head? ≠ some mark := by
  change eachAfterChars mark item cs = some (items, rest) at all
  fun_induction eachAfterChars mark item cs generalizing items with
  | case1 =>
    cases all
    exact ⟨rfl, start, by simp⟩
  | case2 => cases all
  | case3 cs first left read shorter ih =>
    obtain ⟨⟨more, _⟩, later, same⟩ := Option.map_eq_some_iff.1 all
    cases same
    obtain ⟨rfl, follows⟩ := reads _ _ _ read
    obtain ⟨rfl, finish⟩ := ih follows later
    exact ⟨by simp, finish⟩
  | case4 => cases all
  | case5 c left other =>
    cases all
    exact ⟨rfl, start, by simpa using other⟩

theorem run_literals_of_ne {cs : List Char} (other : cs.head? ≠ some quoteMark) :
    literals.run cs = some ([], cs) := by
  simp [literals, other]

theorem run_literals_quote (rest : List Char) :
    literals.run (quoteMark :: rest) =
      (literal >>= fun first => (first :: ·) <$> eachAfter ',' literal).run
        (quoteMark :: rest) := by
  simp [literals]

end Reader

theorem toList_joined_cons (first : String) (more : List String) :
    (",".intercalate ((first :: more).map literal)).toList =
      literalChars first.toList ++ more.flatMap fun text => ',' :: literalChars text.toList := by
  have comma : ",".toList = [','] := rfl
  simp only [String.toList_intercalate, comma, List.map_cons,
    intercalate_cons_eq_append, List.map_map, List.flatMap_map, Function.comp_apply,
    toList_literal, List.cons_append, List.nil_append]

namespace Reader

theorem of_run_literals {cs rest : List Char} {texts : List String}
    (reads : literals.run cs = some (texts, rest)) :
    cs = (",".intercalate (texts.map Sql.literal)).toList ++ rest ∧ rest.head? ≠ some quoteMark ∧
      (texts ≠ [] → rest.head? ≠ some ',') := by
  by_cases opened : cs.head? = some quoteMark
  · obtain ⟨behind, rfl⟩ := List.head?_eq_some_iff.1 opened
    rw [run_literals_quote, StateT.run_bind] at reads
    obtain ⟨⟨first, left⟩, readFirst, readMore⟩ := Option.bind_eq_some_iff.1 reads
    rw [StateT.run_map] at readMore
    obtain ⟨⟨more, _⟩, all, same⟩ := Option.map_eq_some_iff.1 readMore
    cases same
    obtain ⟨written, start⟩ := of_run_literal readFirst
    obtain ⟨rfl, clear, done⟩ := of_run_eachAfter (fun _ _ _ => of_run_literal) start all
    refine ⟨?_, clear, fun _ => done⟩
    rw [written, toList_joined_cons, List.append_assoc]
  · rw [run_literals_of_ne opened] at reads
    cases reads
    exact ⟨rfl, opened, fun notEmpty => absurd rfl notEmpty⟩

theorem run_literals (texts : List String) {rest : List Char}
    (clear : rest.head? ≠ some quoteMark) (done : texts ≠ [] → rest.head? ≠ some ',') :
    literals.run ((",".intercalate (texts.map Sql.literal)).toList ++ rest) = some (texts, rest) := by
  cases texts with
  | nil => exact run_literals_of_ne clear
  | cons first more =>
    have opened : (",".intercalate ((first :: more).map Sql.literal)).toList ++ rest =
        quoteMark :: ((doubleMarks first.toList ++ [quoteMark]) ++
          ((more.flatMap fun text => ',' :: literalChars text.toList) ++ rest)) := by
      rw [toList_joined_cons, literalChars]
      simp
    rw [opened, run_literals_quote, ← opened, toList_joined_cons, List.append_assoc,
      StateT.run_bind, run_literal first (head?_moreLiterals more clear)]
    simp [run_moreLiterals more clear (done (by simp))]

end Reader

def readLiterals (text : String) : Option (List String × String) :=
  (Reader.literals.run text.toList).map fun read => (read.1, String.ofList read.2)

/-- A text behind a list of literals that cannot be taken for a part of it. -/
structure EndsList (texts : List String) (rest : String) : Prop where
  noQuote : rest.toList.head? ≠ some quoteMark
  noComma : texts ≠ [] → rest.toList.head? ≠ some ','

theorem readLiterals_eq_some_iff {text rest : String} {texts : List String} :
    readLiterals text = some (texts, rest) ↔
      text = ",".intercalate (texts.map literal) ++ rest ∧ EndsList texts rest := by
  rw [readLiterals, Option.map_eq_some_iff]
  constructor
  · rintro ⟨⟨_, left⟩, reads, same⟩
    cases same
    obtain ⟨written, noQuote, noComma⟩ := Reader.of_run_literals reads
    refine ⟨String.toList_inj.1 ?_, ?_, ?_⟩
    · rw [written, String.toList_append, String.toList_ofList]
    · rwa [String.toList_ofList]
    · rwa [String.toList_ofList]
  · rintro ⟨rfl, ends⟩
    have reads := Reader.run_literals texts ends.noQuote ends.noComma
    rw [String.toList_append]
    exact ⟨(texts, rest.toList), reads, by rw [String.ofList_toList]⟩

theorem literal_append_inj {one other rest left : String}
    (clear : rest.toList.head? ≠ some quoteMark) (clearToo : left.toList.head? ≠ some quoteMark)
    (same : literal one ++ rest = literal other ++ left) : one = other ∧ rest = left := by
  have first := Reader.run_literal one clear
  have second := Reader.run_literal other clearToo
  have written := congrArg String.toList same
  rw [String.toList_append, String.toList_append, toList_literal, toList_literal] at written
  rw [written, second] at first
  obtain ⟨texts, rests⟩ := Prod.mk.inj (Option.some.inj first)
  exact ⟨texts.symm, String.toList_inj.1 rests.symm⟩

/-- A list of literals is read as the texts that were quoted, up to where it ends, and nothing else
is read as that list. So a literal tells where it ends, and it tells its text. -/
theorem literals_read_back :
    (∀ (texts : List String) (rest : String), rest.toList.head? ≠ some quoteMark →
      rest.toList.head? ≠ some ',' →
        readLiterals (",".intercalate (texts.map literal) ++ rest) = some (texts, rest)) ∧
    (∀ (text : String) (texts : List String) (rest : String),
      readLiterals text = some (texts, rest) →
        text = ",".intercalate (texts.map literal) ++ rest) ∧
    (∀ one other rest left : String, rest.toList.head? ≠ some quoteMark →
      left.toList.head? ≠ some quoteMark → literal one ++ rest = literal other ++ left →
        one = other ∧ rest = left) ∧
    Function.Injective literal := by
  refine ⟨fun texts rest noQuote noComma => ?_, fun text texts rest reads => ?_, ?_, ?_⟩
  · exact readLiterals_eq_some_iff.2 ⟨rfl, noQuote, fun _ => noComma⟩
  · exact (readLiterals_eq_some_iff.1 reads).1
  · exact fun _ _ _ _ clear clearToo same => literal_append_inj clear clearToo same
  · intro one other same
    have noQuote : "".toList.head? ≠ some quoteMark := by simp
    exact (literal_append_inj noQuote noQuote (congrArg (· ++ "") same)).1

theorem literals_read_back_quotes :
    readLiterals ("'''a''b''','''''','''',''" ++ ");\n") =
      some (["'a'b'", "''", "'", ""], ");\n") := by
  have texts : ",".intercalate (["'a'b'", "''", "'", ""].map literal) =
      "'''a''b''','''''','''',''" := by decide
  rw [← texts]
  exact literals_read_back.1 _ _ (by decide) (by decide)

end SchemaScript.Sql
