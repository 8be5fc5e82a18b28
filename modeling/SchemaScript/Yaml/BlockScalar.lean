import SchemaScript.Yaml.Position
import SchemaScript.Yaml.Token

/-!
Scalars in indented blocks. A header tells the style, how breaks at the end are kept, and perhaps
the indentation, which is else that of the first line with content.
-/

namespace SchemaScript.Yaml.BlockScalar

/-- What becomes of the breaks at the end: all go, one stays, or all stay. -/
inductive Chomping
  | strip
  | clip
  | keep
deriving DecidableEq

structure Header where
  chomping : Chomping
  increment : Option Nat

def chomping? (c : Char) : Option Chomping :=
  if c == '+' then some .keep else if c == '-' then some .strip else none

def increment? (c : Char) : Except Fault (Option Nat) :=
  if c == '0' then .error .malformed
  else if c.isDigit then .ok (some (c.toNat - 48))
  else .ok none

def header (position : Position) : Except Fault (Header × Position) := do
  let (header, position) ← (
    match chomping? position.current with
    | some chomping => do
      match ← increment? (position.look 1) with
      | some n => return (⟨chomping, some n⟩, position.skip 2)
      | none => return (⟨chomping, none⟩, position.next)
    | none => do
      match ← increment? position.current with
      | none => return (⟨.clip, none⟩, position)
      | some n =>
        match chomping? (position.look 1) with
        | some chomping => return (⟨chomping, some n⟩, position.skip 2)
        | none => return (⟨.clip, some n⟩, position.next)
    : Except Fault (Header × Position))
  if endsPart position.current then return (header, position) else throw .malformed

def headerEnd (position : Position) : Except Fault Position :=
  let position := position.skipSpaces.skipComment
  if !endsLine position.current then .error .malformed
  else .ok (if isBreak position.current then position.next else position)

def leadingLines : (fuel deepest : Nat) → Position → List Char × Nat × Position
  | 0, deepest, position => ([], deepest, position)
  | fuel + 1, deepest, position =>
    if position.current == ' ' then
      leadingLines fuel (max deepest position.next.column) position.next
    else if isBreak position.current then
      let (breaks, deepest, after) := leadingLines fuel deepest position.next
      (breakContent position.current :: breaks, deepest, after)
    else ([], deepest, position)

def blankLines (indent : Nat) : (fuel : Nat) → Position → List Char × Position
  | 0, position => ([], position)
  | fuel + 1, position =>
    let position := position.skipSpacesTo indent
    if isBreak position.current then
      let (breaks, after) := blankLines indent fuel position.next
      (breakContent position.current :: breaks, after)
    else ([], position)

structure Tail where
  content : List Char
  lastBreak : List Char
  blank : List Char
  position : Position

def isBlankChar (c : Char) : Bool := c == ' ' || c == '\t'

/-- The lines with content. In the folded style a break between two lines that begin with something
other than white space becomes a space, or nothing if blank lines stand between them. -/
def lines (folded : Bool) (indent : Nat) :
    (fuel : Nat) → (lastBreak blank : List Char) → Position → Tail
  | 0, lastBreak, blank, position => ⟨[], lastBreak, blank, position⟩
  | fuel + 1, lastBreak, blank, position =>
    if position.column == indent && position.current != endMark then
      let startsDark := !isBlankChar position.current
      let (line, stop) := position.takeWhile (!endsLine ·)
      let lineBreak := if isBreak stop.current then [breakContent stop.current] else []
      let (nextBlank, after) := blankLines indent (stop.rest.length + 1)
        (if isBreak stop.current then stop.next else stop)
      if after.column == indent && after.current != endMark then
        let joint :=
          if folded && lineBreak == ['\n'] && startsDark && !isBlankChar after.current then
            if nextBlank.isEmpty then [' '] else []
          else lineBreak
        let later := lines folded indent fuel lineBreak nextBlank after
        ⟨blank ++ line ++ joint ++ later.content, later.lastBreak, later.blank, later.position⟩
      else ⟨blank ++ line, lineBreak, nextBlank, after⟩
    else ⟨[], lastBreak, blank, position⟩

def scan (parent : Int) (position : Position) : Except Fault (List Char × Position) := do
  let folded := position.current == '>'
  let (header, position) ← header position.next
  let position ← headerEnd position
  let least := max 1 (parent + 1).toNat
  let (blank, indent, position) :=
    match header.increment with
    | none =>
      let (blank, deepest, after) := leadingLines (position.rest.length + 1) 0 position
      (blank, max least deepest, after)
    | some n =>
      let indent := least + n - 1
      let (blank, after) := blankLines indent (position.rest.length + 1) position
      (blank, indent, after)
  let tail := lines folded indent (position.rest.length + 1) [] blank position
  let ending :=
    match header.chomping with
    | .strip => []
    | .clip => tail.lastBreak
    | .keep => tail.lastBreak ++ tail.blank
  return (tail.content ++ ending, tail.position)

end SchemaScript.Yaml.BlockScalar
