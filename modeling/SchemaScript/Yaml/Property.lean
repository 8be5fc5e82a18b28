import SchemaScript.Text.Character
import SchemaScript.Text.Encoding
import SchemaScript.Yaml.Position
import SchemaScript.Yaml.Token

/-!
Anchors, aliases, tags and directives, each read from its first mark on.
-/

namespace SchemaScript.Yaml.Property

def word (position : Position) : Except Fault (String × Position) :=
  let (chars, after) := position.takeWhile isWordChar
  if chars.isEmpty then .error .malformed else .ok (String.ofList chars, after)

def endsAnchor (c : Char) : Bool := endsWord c || "?:,]%@\x60".toList.contains c || c == '\x7d'

def anchor (position : Position) : Except Fault (String × Position) := do
  let (name, after) ← word position.next
  if endsAnchor after.current then return (name, after) else throw .malformed

def escapedByte? (position : Position) : Option UInt8 :=
  match Text.hexValue? (position.look 1), Text.hexValue? (position.look 2) with
  | some high, some low => some (high * 16 + low).toUInt8
  | _, _ => none

def escapedBytes : (fuel : Nat) → Position → Except Fault (List UInt8 × Position)
  | 0, position => .ok ([], position)
  | fuel + 1, position =>
    if position.current == '%' then
      match escapedByte? position with
      | none => .error .malformed
      | some byte => do
        let (bytes, after) ← escapedBytes fuel (position.skip 3)
        return (byte :: bytes, after)
    else .ok ([], position)

def uriChars : (fuel : Nat) → Position → Except Fault (List Char × Position)
  | 0, position => .ok ([], position)
  | fuel + 1, position =>
    if position.current == '%' then do
      let (bytes, after) ← escapedBytes (position.rest.length + 1) position
      match Text.Utf8.decode bytes.toByteArray with
      | .error _ => throw .malformed
      | .ok chars =>
        let (later, stop) ← uriChars fuel after
        return (chars ++ later, stop)
    else if isTagChar position.current then do
      let (later, stop) ← uriChars fuel position.next
      return (position.current :: later, stop)
    else .ok ([], position)

/-- A part of a tag. It may not be empty, although escapes may spell nothing. -/
def uri (position : Position) : Except Fault (String × Position) := do
  let (chars, after) ← uriChars (position.rest.length + 1) position
  if after.index = position.index then throw .malformed
  return (String.ofList chars, after)

def handle (position : Position) : Except Fault (String × Position) :=
  if position.current != '!' then .error .malformed
  else if position.look 1 == ' ' then .ok ("!", position.next)
  else
    let (chars, after) := position.next.takeWhile isWordChar
    if after.current == '!' then
      .ok (String.ofList ('!' :: chars ++ ['!']), after.next)
    else .error .malformed

def tag (position : Position) : Except Fault (Token × Position) := do
  let c := position.look 1
  let (token, after) ← (
    if c == '<' then do
      let (suffix, after) ← uri (position.skip 2)
      if after.current != '>' then throw .malformed
      return (.tag none suffix, after.next)
    else if endsWord c then return (.tag none "!", position.next)
    else if (position.next.rest.takeWhile (!endsPart ·)).contains '!' then do
      let (handle, after) ← handle position
      let (suffix, after) ← uri after
      return (.tag (some handle) suffix, after)
    else do
      let (suffix, after) ← uri position.next
      return (.tag (some "!") suffix, after)
    : Except Fault (Token × Position))
  if endsPart after.current then return (token, after) else throw .malformed

def number (position : Position) : Except Fault (Nat × Position) :=
  let (digits, after) := position.takeWhile Char.isDigit
  if digits.isEmpty then .error .malformed
  else if Number.maximalDigits < digits.length then .error (.numeral (.tooLong digits.length))
  else .ok (digits.foldl (fun n c => n * 10 + (c.toNat - 48)) 0, after)

def version (position : Position) : Except Fault (Directive × Position) := do
  let (major, position) ← number position.skipSpaces
  if position.current != '.' then throw .malformed
  let (minor, position) ← number position.next
  if endsPart position.current then return (.version major minor, position)
  else throw .malformed

def tagDirective (position : Position) : Except Fault (Directive × Position) := do
  let (handle, position) ← handle position.skipSpaces
  if position.current != ' ' then throw .malformed
  let (lead, position) ← uri position.skipSpaces
  if endsPart position.current then return (.tag handle lead, position)
  else throw .malformed

def directive (position : Position) : Except Fault (Directive × Position) := do
  let (name, position) ← word position.next
  if !endsPart position.current then throw .malformed
  let (directive, position) ← (
    if name == "YAML" then version position
    else if name == "TAG" then tagDirective position
    else return (.other, position.skipWhile (!endsLine ·))
    : Except Fault (Directive × Position))
  let position := position.skipSpaces.skipComment
  if !endsLine position.current then throw .malformed
  return (directive, if isBreak position.current then position.next else position)

end SchemaScript.Yaml.Property
