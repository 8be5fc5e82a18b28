import SchemaScript.Text.Character
import SchemaScript.Yaml.Position
import SchemaScript.Yaml.Token

/-!
Scalars without quotes and in quotes. They may go on over several lines; a single break inside
becomes a space, and of several breaks all but the first stay. Between single quotes only a doubled
quote is special; between double quotes a backslash begins an escape.
-/

namespace SchemaScript.Yaml.PlainScalar

/-- Whether a character ends a run, given what follows it. A colon ends it only before something
that ends a word. -/
def stops (inFlow : Bool) (c : Char) (rest : List Char) : Bool :=
  let after := rest.head?.getD endMark
  endsWord c || (c == ':' && (endsWord after || (inFlow && isFlowMark after))) ||
    (inFlow && (isFlowMark c || c == '?'))

def run (inFlow : Bool) : List Char → List Char
  | [] => []
  | c :: rest => if stops inFlow c rest then [] else c :: run inFlow rest

/-- What parts two runs: its content, where it ends, and whether it crosses a break. -/
structure Gap where
  content : List Char
  position : Position
  crossesBreak : Bool

def blankLines : (fuel : Nat) → Position → Option (List Char) × Position
  | 0, position => (some [], position)
  | fuel + 1, position =>
    if position.current == ' ' then blankLines fuel position.next
    else if isBreak position.current then
      if position.next.atSeparator then (none, position.next)
      else
        let (breaks, after) := blankLines fuel position.next
        (breaks.map (breakContent position.current :: ·), after)
    else (some [], position)

/-- One break folds to a space unless breaks follow it. -/
def foldBreak (first : Char) (more : List Char) : List Char :=
  if breakContent first != '\n' then breakContent first :: more
  else if more.isEmpty then [' ']
  else more

def gap (position : Position) : Gap :=
  let (spaces, after) := position.takeWhile (· == ' ')
  if isBreak after.current then
    if after.next.atSeparator then ⟨[], after.next, true⟩
    else
      match blankLines (after.rest.length + 1) after.next with
      | (none, stop) => ⟨[], stop, true⟩
      | (some breaks, stop) => ⟨foldBreak after.current breaks, stop, true⟩
  else ⟨spaces, after, false⟩

structure Scan where
  content : List Char
  position : Position
  afterBreak : Bool

def lines (inFlow : Bool) (indent : Nat) :
    (fuel : Nat) → (before : List Char) → (afterBreak : Bool) → Position → Scan
  | 0, _, afterBreak, position => ⟨[], position, afterBreak⟩
  | fuel + 1, before, afterBreak, position =>
    let chars := if position.current == '#' then [] else run inFlow position.rest
    if chars.isEmpty then ⟨[], position, afterBreak⟩
    else
      let gap := gap (position.skip chars.length)
      if gap.content.isEmpty || gap.position.current == '#' ||
          (!inFlow && gap.position.column < indent) then
        ⟨before ++ chars, gap.position, gap.crossesBreak⟩
      else
        let later := lines inFlow indent fuel gap.content gap.crossesBreak gap.position
        ⟨before ++ chars ++ later.content, later.position, later.afterBreak⟩

def scan (inFlow : Bool) (indent : Nat) (position : Position) : Scan :=
  lines inFlow indent (position.rest.length + 1) [] false position

end SchemaScript.Yaml.PlainScalar

namespace SchemaScript.Yaml.QuotedScalar

def singleMark : Char := '\x27'

def doubleMark : Char := '\x22'

def escaped? (c : Char) : Option Nat :=
  match c with
  | '0' => some 0
  | 'a' => some 7
  | 'b' => some 8
  | 't' => some 9
  | '\t' => some 9
  | 'n' => some 10
  | 'v' => some 11
  | 'f' => some 12
  | 'r' => some 13
  | 'e' => some 27
  | ' ' => some 32
  | '\x22' => some 34
  | '\\' => some 92
  | '/' => some 47
  | 'N' => some 0x85
  | '_' => some 0xA0
  | 'L' => some 0x2028
  | 'P' => some 0x2029
  | _ => none

def escapeWidth? (c : Char) : Option Nat :=
  match c with
  | 'x' => some 2
  | 'u' => some 4
  | 'U' => some 8
  | _ => none

def readCode (width : Nat) (position : Position) : Except Fault Nat :=
  let digits := (position.rest.take width).filterMap Text.hexValue?
  if digits.length < width then .error .malformed
  else
    let code := digits.foldl (fun n d => n * 16 + d) 0
    if 0x7FFFFFFF < code then .error .codeWord
    else if 0x10FFFF < code then .error .codePoint
    else .ok code

def breaks : (fuel : Nat) → Position → Except Fault (List Char × Position)
  | 0, position => .ok ([], position)
  | fuel + 1, position =>
    if position.atSeparator then .error .malformed
    else
      let position := position.skipWhile fun c => c == ' ' || c == '\t'
      if isBreak position.current then do
        let (more, after) ← breaks fuel position.next
        return (breakContent position.current :: more, after)
      else .ok ([], position)

def codesOf (chars : List Char) : List Nat := chars.map (·.toNat)

def spaces (position : Position) : Except Fault (List Nat × Position) :=
  let (blank, after) := position.takeWhile fun c => c == ' ' || c == '\t'
  if after.current == endMark then .error .malformed
  else if isBreak after.current then do
    let (more, stop) ← breaks (after.rest.length + 1) after.next
    return (codesOf (PlainScalar.foldBreak after.current more), stop)
  else .ok (codesOf blank, after)

def escape (position : Position) : Except Fault (List Nat × Position) :=
  let c := position.current
  match escaped? c, escapeWidth? c with
  | some code, _ => .ok ([code], position.next)
  | none, some width => do
    let code ← readCode width position.next
    return ([code], position.skip (width + 1))
  | none, none =>
    if isBreak c then do
      let (more, after) ← breaks (position.rest.length + 1) position.next
      return (codesOf more, after)
    else .error .malformed

def body (double : Bool) : (fuel : Nat) → Position → Except Fault (List Nat × Position)
  | 0, _ => .error .malformed
  | fuel + 1, position =>
    let quote := if double then doubleMark else singleMark
    let c := position.current
    let go (piece : List Nat) (after : Position) : Except Fault (List Nat × Position) := do
      let (later, stop) ← body double fuel after
      return (piece ++ later, stop)
    if !double && c == singleMark && position.look 1 == singleMark then
      go [c.toNat] (position.skip 2)
    else if c == quote then .ok ([], position.next)
    else if double && c == '\\' then do
      let (piece, after) ← escape position.next
      go piece after
    else if endsWord c then do
      let (piece, after) ← spaces position
      go piece after
    else go [c.toNat] position.next

def scan (position : Position) : Except Fault (List Nat × Position) :=
  body (position.current == doubleMark) (position.rest.length + 1) position.next

end SchemaScript.Yaml.QuotedScalar
