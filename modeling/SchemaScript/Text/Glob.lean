/-!
Shell patterns: a star stands for any text, a question mark for one character and a bracketed set
for one of its characters. In a set a hyphen between two characters makes a range; a range whose
ends are in the wrong order is dropped together with them.
-/

namespace SchemaScript.Text.Glob

structure CharSet where
  negated : Bool
  ranges : List (Char × Char)
deriving DecidableEq, Repr

def CharSet.contains (set : CharSet) (c : Char) : Bool :=
  set.negated != set.ranges.any fun range => range.1 ≤ c && c ≤ range.2

inductive Piece
  | anyText
  | anyChar
  | char (c : Char)
  | oneOf (set : CharSet)
deriving DecidableEq, Repr

/-- Splits the body of a set at the hyphens that make ranges. A hyphen makes a range if at least
`wait` characters precede it and the next may come three places after it. -/
def splitRanges : (wait : Nat) → List Char → List (List Char)
  | _, [] => [[]]
  | wait + 1, c :: rest =>
    match splitRanges wait rest with
    | chunk :: chunks => (c :: chunk) :: chunks
    | [] => [[c]]
  | 0, c :: rest =>
    if c = '-' then [] :: splitRanges 2 rest
    else
      match splitRanges 0 rest with
      | chunk :: chunks => (c :: chunk) :: chunks
      | [] => [[c]]

def attachFinalHyphen : List (List Char) → List (List Char)
  | [chunk, []] => [chunk ++ ['-']]
  | chunk :: chunks => chunk :: attachFinalHyphen chunks
  | [] => []

/-- Joins two neighbours whose range would be empty, without the ends of the range. The last pair
is looked at first. -/
def dropEmptyRanges : List (List Char) → List (List Char)
  | [] => []
  | chunk :: chunks =>
    match dropEmptyRanges chunks with
    | [] => [chunk]
    | next :: rest =>
      match chunk.getLast?, next.head? with
      | some least, some greatest =>
        if greatest < least then (chunk.dropLast ++ next.tail) :: rest else chunk :: next :: rest
      | _, _ => chunk :: next :: rest

inductive SetMark
  | char (c : Char)
  | hyphen

def marks : List (List Char) → List SetMark
  | [] => []
  | [chunk] => chunk.map .char
  | chunk :: chunks => chunk.map .char ++ .hyphen :: marks chunks

def rangesOf : List SetMark → List (Char × Char)
  | .char a :: .hyphen :: .char b :: rest => (a, b) :: rangesOf rest
  | .char a :: rest => (a, a) :: rangesOf rest
  | .hyphen :: rest => ('-', '-') :: rangesOf rest
  | [] => []

def chunksOf (body : List Char) : List (List Char) :=
  if body.contains '-' then
    let wait := if body.head? = some '!' then 2 else 1
    dropEmptyRanges (attachFinalHyphen (splitRanges wait body))
  else [body]

/-- The piece for a bracketed set. A set left empty matches nothing, and its complement matches
any character. -/
def setPiece (body : List Char) : Piece :=
  match marks (chunksOf body) with
  | .char '!' :: rest => .oneOf ⟨true, rangesOf rest⟩
  | elements => .oneOf ⟨false, rangesOf elements⟩

/-- How many characters open the body of a set: an exclamation mark, and a bracket that does not
close the set because nothing precedes it. -/
def leadLength : List Char → Nat
  | '!' :: ']' :: _ => 2
  | '!' :: _ => 1
  | ']' :: _ => 1
  | _ => 0

def splitSet? (rest : List Char) : Option (List Char × List Char) :=
  let tail := rest.drop (leadLength rest)
  match tail.dropWhile (· != ']') with
  | [] => none
  | _ :: after => some (rest.take (leadLength rest) ++ tail.takeWhile (· != ']'), after)

theorem splitSet?_length {rest body after : List Char} (h : splitSet? rest = some (body, after)) :
    after.length < rest.length := by
  simp only [splitSet?] at h
  split at h
  · simp at h
  · next c found closing =>
    have shorter := (List.dropWhile_sublist (· != ']') (l := rest.drop (leadLength rest))).length_le
    simp only [Option.some.injEq, Prod.mk.injEq] at h
    simp only [closing, List.length_cons, List.length_drop] at shorter
    rw [← h.2]
    omega

def parse : List Char → List Piece
  | [] => []
  | '*' :: rest => .anyText :: parse rest
  | '?' :: rest => .anyChar :: parse rest
  | '[' :: rest =>
    match h : splitSet? rest with
    | some (body, after) =>
      have := splitSet?_length h
      setPiece body :: parse after
    | none => .char '[' :: parse rest
  | c :: rest => .char c :: parse rest
termination_by cs => cs.length

def Piece.accepts : Piece → Char → Bool
  | .anyText, _ => true
  | .anyChar, _ => true
  | .char expected, c => c == expected
  | .oneOf set, c => set.contains c

def anyFromHere : List Bool → List Bool
  | [] => []
  | here :: later =>
    match anyFromHere later with
    | [] => [here]
    | next :: rest => (here || next) :: next :: rest

/-- For each end of the text, the whole text first, whether the pieces spell it. -/
def spelledEnds (text : List Char) : List Piece → List Bool
  | [] => text.map (fun _ => false) ++ [true]
  | .anyText :: pieces => anyFromHere (spelledEnds text pieces)
  | piece :: pieces =>
    text.zipWith (fun c after => piece.accepts c && after) (spelledEnds text pieces).tail ++ [false]

def spells (pieces : List Piece) (text : List Char) : Bool :=
  (spelledEnds text pieces).head?.getD false

end Glob

def globMatches (pattern text : String) : Bool :=
  Glob.spells (Glob.parse pattern.toList) text.toList

end SchemaScript.Text
