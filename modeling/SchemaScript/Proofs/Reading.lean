import Mathlib.Data.List.Infix
import SchemaScript.Sql

/-!
Reading text from its front. A reader takes off what it knows and leaves the rest. The mark that
opens a literal is text like any other; what stands behind it is read up to the first mark that is
not doubled.
-/

namespace SchemaScript

namespace Sql

abbrev Reader := StateT (List Char) Option

namespace Reader

variable {α : Type}

def text (expected : String) : Reader Unit :=
  StateT.mk fun cs => (cs.dropPrefix? expected.toList).map ((), ·)

def upToChars (stop : Char) : List Char → Option (List Char × List Char)
  | [] => none
  | c :: rest =>
    if c = stop then some ([], rest)
    else (upToChars stop rest).map fun (passed, left) => (c :: passed, left)

def upTo (stop : Char) : Reader (List Char) := StateT.mk (upToChars stop)

def closeLiteral : List Char → Option (List Char × List Char)
  | [] => none
  | c :: rest =>
    if c = quoteMark then
      match rest with
      | [] => some ([], [])
      | d :: left =>
        if d = quoteMark then
          (closeLiteral left).map fun (inside, left) => (quoteMark :: inside, left)
        else some ([], d :: left)
    else (closeLiteral rest).map fun (inside, left) => (c :: inside, left)

def literal : Reader String := do
  text "'"
  String.ofList <$> StateT.mk closeLiteral

def eachAfterChars (mark : Char) (item : Reader α) (cs : List Char) :
    Option (List α × List Char) :=
  match cs with
  | [] => some ([], [])
  | c :: rest =>
    if c = mark then
      match item.run rest with
      | none => none
      | some (first, left) =>
        if left.length ≤ rest.length then
          (eachAfterChars mark item left).map fun (more, left) => (first :: more, left)
        else none
    else some ([], c :: rest)
termination_by cs.length
decreasing_by
  simp only [List.length_cons]
  omega

def eachAfter (mark : Char) (item : Reader α) : Reader (List α) :=
  StateT.mk (eachAfterChars mark item)

theorem run_text (expected : String) (rest : List Char) :
    (text expected).run (expected.toList ++ rest) = some ((), rest) := by
  have taken : (expected.toList ++ rest).dropPrefix? expected.toList = some rest :=
    List.dropPrefix?_append_of_beq rest (beq_self_eq_true _)
  change ((expected.toList ++ rest).dropPrefix? expected.toList).map ((), ·) = some ((), rest)
  rw [taken]
  rfl

theorem run_orElse_of_some {first second : Reader α} {cs rest : List Char} {a : α}
    (reads : first.run cs = some (a, rest)) : (first <|> second).run cs = some (a, rest) := by
  change (first.run cs <|> second.run cs) = some (a, rest)
  rw [reads]
  rfl

theorem run_orElse_of_none {first second : Reader α} {cs : List Char}
    (fails : first.run cs = none) : (first <|> second).run cs = second.run cs := by
  change (first.run cs <|> second.run cs) = second.run cs
  rw [fails]
  rfl

theorem run_upTo {stop : Char} {passed : List Char} (absent : stop ∉ passed) (rest : List Char) :
    (upTo stop).run (passed ++ stop :: rest) = some (passed, rest) := by
  change upToChars stop (passed ++ stop :: rest) = some (passed, rest)
  induction passed with
  | nil => simp [upToChars]
  | cons c passed ih =>
    rw [List.mem_cons, not_or] at absent
    have other : c ≠ stop := fun same => absent.1 same.symm
    simp [upToChars, other, ih absent.2]

theorem closeLiteral_cons {c : Char} (other : c ≠ quoteMark) (rest : List Char) :
    closeLiteral (c :: rest) =
      (closeLiteral rest).map fun (inside, left) => (c :: inside, left) := by
  cases rest <;> simp [closeLiteral, other]

/-- A mark behind a literal would look like a mark inside it. -/
theorem closeLiteral_doubleMarks (cs : List Char) {rest : List Char}
    (clear : rest.head? ≠ some quoteMark) :
    closeLiteral (doubleMarks cs ++ quoteMark :: rest) = some (cs, rest) := by
  induction cs with
  | nil =>
    cases rest with
    | nil => simp [doubleMarks, closeLiteral]
    | cons d rest =>
      have other : d ≠ quoteMark := by simpa using clear
      simp [doubleMarks, closeLiteral, other]
  | cons c cs ih =>
    by_cases mark : c = quoteMark
    · simp [doubleMarks, closeLiteral, mark, ih]
    · simp [doubleMarks, closeLiteral_cons mark, mark, ih]

theorem run_literal (content : String) {rest : List Char}
    (clear : rest.head? ≠ some quoteMark) :
    literal.run (literalChars content.toList ++ rest) = some (content, rest) := by
  have opened : literalChars content.toList ++ rest =
      "'".toList ++ (doubleMarks content.toList ++ quoteMark :: rest) := by
    simp [literalChars, quoteMark]
  have closed := closeLiteral_doubleMarks content.toList clear
  rw [opened, literal, StateT.run_bind, run_text]
  simp [closed]

/-- Items with a mark before each are read one by one, whatever an item needs to see behind it,
provided that another mark will do, and so will what follows the last item. -/
theorem run_eachAfter {mark : Char} {item : Reader α} {written : α → List Char}
    (Follows : List Char → Prop) (again : ∀ rest, Follows (mark :: rest)) {items : List α}
    (reads : ∀ first ∈ items, ∀ rest, Follows rest →
      item.run (written first ++ rest) = some (first, rest))
    {rest : List Char} (finish : Follows rest) (done : rest.head? ≠ some mark) :
    (eachAfter mark item).run ((items.flatMap fun first => mark :: written first) ++ rest) =
      some (items, rest) := by
  change eachAfterChars mark item _ = _
  induction items with
  | nil =>
    rw [List.flatMap_nil, List.nil_append]
    cases rest with
    | nil => rw [eachAfterChars]
    | cons c rest =>
      have other : c ≠ mark := by simpa using done
      rw [eachAfterChars, if_neg other]
  | cons first items ih =>
    have later := ih fun other listed => reads other (List.mem_cons_of_mem first listed)
    have follows : Follows ((items.flatMap fun first => mark :: written first) ++ rest) := by
      cases items with
      | nil => simpa using finish
      | cons second items => simpa using again _
    have now := reads first List.mem_cons_self _ follows
    rw [List.flatMap_cons, List.cons_append, List.cons_append, List.append_assoc, eachAfterChars,
      if_pos rfl, now]
    simp [later]

theorem run_eachAfter_of_reads {mark : Char} {item : Reader α} {written : α → List Char}
    {items : List α}
    (reads : ∀ first ∈ items, ∀ rest, item.run (written first ++ rest) = some (first, rest))
    {rest : List Char} (done : rest.head? ≠ some mark) :
    (eachAfter mark item).run ((items.flatMap fun first => mark :: written first) ++ rest) =
      some (items, rest) :=
  run_eachAfter (fun _ => True) (fun _ => trivial)
    (fun first listed rest _ => reads first listed rest) trivial done

section

variable (more : List String) {rest : List Char}

theorem head?_moreLiterals (clear : rest.head? ≠ some quoteMark) :
    ((more.flatMap fun text => ',' :: literalChars text.toList) ++ rest).head? ≠
      some quoteMark := by
  cases more with
  | nil => exact clear
  | cons second more => simp [quoteMark]

theorem run_moreLiterals (clear : rest.head? ≠ some quoteMark) (done : rest.head? ≠ some ',') :
    (eachAfter ',' literal).run
        ((more.flatMap fun text => ',' :: literalChars text.toList) ++ rest) =
      some (more, rest) :=
  run_eachAfter (fun after => after.head? ≠ some quoteMark) (fun _ => by simp [quoteMark])
    (fun text _ _ => run_literal text) clear done

end

end Reader

end Sql

end SchemaScript
