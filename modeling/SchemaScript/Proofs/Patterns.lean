import Mathlib.Data.List.Infix
import SchemaScript.Text.Glob

/-!
What shell patterns match. A text is spelled by pieces one after the other, of which those for any
text take as much as they like. Trying all ends of a text at once comes to the same.
-/

namespace SchemaScript.Text

namespace Glob

inductive Spells : List Piece → List Char → Prop
  | nil : Spells [] []
  | anyText {pieces : List Piece} (taken : List Char) {rest : List Char}
      (later : Spells pieces rest) : Spells (.anyText :: pieces) (taken ++ rest)
  | single {piece : Piece} {pieces : List Piece} {c : Char} {rest : List Char}
      (one : piece ≠ .anyText) (accepted : piece.accepts c = true) (later : Spells pieces rest) :
      Spells (piece :: pieces) (c :: rest)

theorem spells_nil_iff {text : List Char} : Spells [] text ↔ text = [] := by
  constructor
  · rintro ⟨⟩
    rfl
  · rintro rfl
    exact .nil

theorem spells_anyText_iff {pieces : List Piece} {text : List Char} :
    Spells (.anyText :: pieces) text ↔ ∃ taken rest, text = taken ++ rest ∧ Spells pieces rest := by
  constructor
  · intro spelled
    cases spelled with
    | anyText taken later => exact ⟨taken, _, rfl, later⟩
    | single one _ _ => exact absurd rfl one
  · rintro ⟨taken, rest, rfl, later⟩
    exact .anyText taken later

theorem spells_anyText_cons_iff {pieces : List Piece} {c : Char} {text : List Char} :
    Spells (.anyText :: pieces) (c :: text) ↔
      Spells pieces (c :: text) ∨ Spells (.anyText :: pieces) text := by
  simp only [spells_anyText_iff]
  constructor
  · rintro ⟨_ | ⟨_, taken⟩, rest, same, later⟩
    · exact .inl (by rwa [same])
    · exact .inr ⟨taken, rest, (List.cons.inj same).2, later⟩
  · rintro (now | ⟨taken, rest, rfl, later⟩)
    · exact ⟨[], _, rfl, now⟩
    · exact ⟨c :: taken, rest, rfl, later⟩

theorem spells_single_iff {piece : Piece} (one : piece ≠ .anyText) {pieces : List Piece}
    {text : List Char} :
    Spells (piece :: pieces) text ↔
      ∃ c rest, text = c :: rest ∧ piece.accepts c = true ∧ Spells pieces rest := by
  constructor
  · intro spelled
    cases spelled with
    | anyText taken later => exact absurd rfl one
    | single _ accepted later => exact ⟨_, _, rfl, accepted, later⟩
  · rintro ⟨c, rest, rfl, accepted, later⟩
    exact .single one accepted later

theorem spelledEnds_of_single {piece : Piece} (one : piece ≠ .anyText) (pieces : List Piece)
    (text : List Char) :
    spelledEnds text (piece :: pieces) =
      text.zipWith (fun c after => piece.accepts c && after) (spelledEnds text pieces).tail ++
        [false] := by
  cases piece with
  | anyText => exact absurd rfl one
  | anyChar => rfl
  | char expected => rfl
  | oneOf set => rfl

theorem head?_map_tails {α : Type} (f : List Char → α) (text : List Char) :
    (text.tails.map f).head? = some (f text) := by
  cases text <;> simp

theorem anyFromHere_cons (here : Bool) (later : List Bool) :
    anyFromHere (here :: later) =
      (here || (anyFromHere later).head?.getD false) :: anyFromHere later := by
  rw [anyFromHere]
  cases anyFromHere later <;> simp

open Classical in
theorem anyFromHere_map_tails (pieces : List Piece) (text : List Char) :
    anyFromHere (text.tails.map fun rest => decide (Spells pieces rest)) =
      text.tails.map fun rest => decide (Spells (.anyText :: pieces) rest) := by
  induction text with
  | nil => simp [anyFromHere, spells_anyText_iff]
  | cons c text ih =>
    simp only [List.tails, List.map_cons]
    rw [anyFromHere_cons, ih, head?_map_tails]
    simp only [Option.getD_some, ← Bool.decide_or, spells_anyText_cons_iff]

open Classical in
theorem zipWith_map_tails {piece : Piece} (one : piece ≠ .anyText) (pieces : List Piece)
    (text : List Char) :
    text.zipWith (fun c after => piece.accepts c && after)
        (text.tails.map fun rest => decide (Spells pieces rest)).tail ++ [false] =
      text.tails.map fun rest => decide (Spells (piece :: pieces) rest) := by
  induction text with
  | nil => simp [spells_single_iff one]
  | cons c text ih =>
    have first := head?_map_tails (fun rest => decide (Spells pieces rest)) text
    obtain ⟨_, split⟩ := List.head?_eq_some_iff.1 first
    simp only [List.tails, List.map_cons, List.tail_cons]
    rw [← ih, split]
    simp [spells_single_iff one]

open Classical in
/-- Each end of a text gets the answer to whether the pieces spell it. -/
theorem spelledEnds_eq (text : List Char) (pieces : List Piece) :
    spelledEnds text pieces = text.tails.map fun rest => decide (Spells pieces rest) := by
  induction pieces with
  | nil =>
    induction text with
    | nil => simp [spelledEnds, spells_nil_iff]
    | cons c text ih => simpa [spelledEnds, spells_nil_iff] using ih
  | cons piece pieces ih =>
    by_cases one : piece = .anyText
    · subst one
      rw [spelledEnds, ih, anyFromHere_map_tails]
    · rw [spelledEnds_of_single one, ih, zipWith_map_tails one]

theorem spells_iff {pieces : List Piece} {text : List Char} :
    spells pieces text = true ↔ Spells pieces text := by
  rw [spells, spelledEnds_eq, head?_map_tails]
  simp

theorem spells_chars_iff {cs text : List Char} : Spells (cs.map .char) text ↔ text = cs := by
  induction cs generalizing text with
  | nil => exact spells_nil_iff
  | cons c cs ih =>
    have one : Piece.char c ≠ .anyText := by simp
    rw [List.map_cons, spells_single_iff one]
    constructor
    · rintro ⟨d, rest, rfl, accepted, later⟩
      rw [ih.1 later, beq_iff_eq.1 accepted]
    · rintro rfl
      exact ⟨c, cs, rfl, beq_self_eq_true c, ih.2 rfl⟩

def isPlainMark (c : Char) : Bool := c != '*' && c != '?' && c != '['

theorem parse_of_plain {cs : List Char} (plain : cs.all isPlainMark = true) :
    parse cs = cs.map .char := by
  induction cs with
  | nil => rw [parse, List.map_nil]
  | cons c cs ih =>
    simp only [List.all_cons, isPlainMark, Bool.and_eq_true, bne_iff_ne] at plain
    obtain ⟨⟨⟨noStar, noQuestion⟩, noBracket⟩, later⟩ := plain
    rw [parse, ih later, List.map_cons]
    · exact noStar
    · exact noQuestion
    · exact noBracket

end Glob

/-- A star before plain text matches what ends in that text, also the bare text. -/
theorem globMatches_star_iff {ending name : String}
    (plain : ending.toList.all Glob.isPlainMark = true) :
    globMatches ("*" ++ ending) name = true ↔ ∃ stem, name = stem ++ ending := by
  have parsed : Glob.parse ("*" ++ ending).toList =
      .anyText :: ending.toList.map .char := by
    have star : "*".toList = ['*'] := rfl
    rw [String.toList_append, star, List.singleton_append, Glob.parse, Glob.parse_of_plain plain]
  rw [globMatches, parsed, Glob.spells_iff, Glob.spells_anyText_iff]
  constructor
  · rintro ⟨taken, rest, same, later⟩
    refine ⟨String.ofList taken, String.toList_inj.1 ?_⟩
    rw [same, Glob.spells_chars_iff.1 later, String.toList_append, String.toList_ofList]
  · rintro ⟨stem, rfl⟩
    exact ⟨stem.toList, ending.toList, String.toList_append, Glob.spells_chars_iff.2 rfl⟩

end SchemaScript.Text
