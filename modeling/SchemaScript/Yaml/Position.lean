/-!
Positions in the text of a document, and the characters that matter there. A null character stands
for the end of the text, since none may occur in it; carriage returns are gone before a document is
read, and a byte order mark takes no column.
-/

namespace SchemaScript.Yaml

def endMark : Char := '\x00'

def isAllowed (c : Char) : Bool :=
  let n := c.toNat
  n == 9 || n == 10 || n == 13 || (0x20 ≤ n && n ≤ 0x7E) || n == 0x85 ||
    (0xA0 ≤ n && n ≤ 0xD7FF) || (0xE000 ≤ n && n ≤ 0xFFFD) || 0x10000 ≤ n

def isBreak (c : Char) : Bool := c == '\n' || c == '\x85' || c == '\u2028' || c == '\u2029'

def endsLine (c : Char) : Bool := isBreak c || c == endMark

def endsPart (c : Char) : Bool := endsLine c || c == ' '

def endsWord (c : Char) : Bool := endsPart c || c == '\t'

def byteOrderMark : Char := '\uFEFF'

/-- A break as it stands in content. Only the Unicode separators keep their form. -/
def breakContent (c : Char) : Char := if c == '\u2028' || c == '\u2029' then c else '\n'

def isWordChar (c : Char) : Bool := c.isAlphanum || c == '-' || c == '_'

def isTagChar (c : Char) : Bool :=
  c.isAlphanum || "-;/?:@&=+$,_.!~*()[]%".toList.contains c || c == '\x27'

def isFlowMark (c : Char) : Bool := ",[]".toList.contains c || c == '\x7b' || c == '\x7d'

structure Position where
  rest : List Char
  index : Nat
  line : Nat
  column : Nat
deriving Repr

namespace Position

def start (text : List Char) : Position := ⟨text, 0, 0, 0⟩

def look (position : Position) (offset : Nat) : Char := (position.rest[offset]?).getD endMark

def current (position : Position) : Char := position.rest.head?.getD endMark

def next (position : Position) : Position :=
  match position.rest with
  | [] => position
  | c :: rest =>
    if isBreak c then ⟨rest, position.index + 1, position.line + 1, 0⟩
    else if c == byteOrderMark then ⟨rest, position.index + 1, position.line, position.column⟩
    else ⟨rest, position.index + 1, position.line, position.column + 1⟩

def skip : (count : Nat) → Position → Position
  | 0, position => position
  | count + 1, position => skip count position.next

def takeWhile (test : Char → Bool) (position : Position) : List Char × Position :=
  let taken := position.rest.takeWhile test
  (taken, position.skip taken.length)

def skipWhile (test : Char → Bool) (position : Position) : Position :=
  (position.takeWhile test).2

def skipSpaces (position : Position) : Position := position.skipWhile (· == ' ')

def skipSpacesTo (column : Nat) (position : Position) : Position :=
  let spaces := (position.rest.takeWhile (· == ' ')).length
  position.skip (min spaces (column - position.column))

def skipComment (position : Position) : Position :=
  if position.current == '#' then position.skipWhile (!endsLine ·) else position

def atSeparator (position : Position) : Bool :=
  (position.rest.take 3 == ['-', '-', '-'] || position.rest.take 3 == ['.', '.', '.']) &&
    endsWord (position.look 3)

end Position

end SchemaScript.Yaml
