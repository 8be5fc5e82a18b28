import SchemaScript.Number.Binary64
import SchemaScript.Text.Character
import SchemaScript.Text.Encoding
import SchemaScript.Value
import SchemaScript.Yaml.Tag
import SchemaScript.Yaml.Token

/-!
Values of scalars. The tag says what the text has to be; a tag written by hand may claim a type
that the text does not have.
-/

namespace SchemaScript.Yaml

open Number

def withoutMarks (text : String) : List Char := text.toList.filter (· != '_')

def sexagesimal (parts : List Int) : Int := parts.foldl (fun value part => value * 60 + part) 0

def readNumeral (base : Nat) (cs : List Char) : Except Fault Int :=
  (readInteger base (String.ofList cs)).mapError .numeral

/-- Binary, hexadecimal and sexagesimal numerals are told by their marks; a leading nought means
octal. -/
def magnitude : List Char → Except Fault Int
  | [] => .error .emptyNumber
  | ['0'] => .ok 0
  | '0' :: 'b' :: rest => readNumeral 2 rest
  | '0' :: 'x' :: rest => readNumeral 16 rest
  | '0' :: rest => readNumeral 8 ('0' :: rest)
  | cs =>
    if cs.contains ':' then sexagesimal <$> (cs.splitOn ':').mapM (readNumeral 10)
    else readNumeral 10 cs

def integerValue (text : String) : Except Fault Int := do
  let cs := withoutMarks text
  if cs.isEmpty then throw .emptyNumber
  let (negative, cs) := takeSign cs
  let size ← magnitude cs
  return if negative then -size else size

def readDecimal (cs : List Char) : Except Fault Binary64 :=
  match Binary64.read? (String.ofList cs) with
  | some value => .ok value
  | none => .error (.decimal (String.ofList cs))

/-- The parts of a number in base 60, the least significant first, each times its own power. The
power has to be a real number, even where the part is nought. -/
def sexagesimalReal : (power : Nat) → List Binary64 → Binary64 → Except Fault Binary64
  | _, [], sum => .ok sum
  | power, part :: parts, sum =>
    match Binary64.ofInt power with
    | .infinite _ => .error .powerOfSixty
    | weight => sexagesimalReal (power * 60) parts (sum.add (part.multiply weight))

def realMagnitude (cs : List Char) : Except Fault Binary64 :=
  if cs.contains ':' then do
    let parts ← (cs.splitOn ':').mapM readDecimal
    sexagesimalReal 1 parts.reverse (.nought false)
  else readDecimal cs

def realValue (text : String) : Except Fault Binary64 := do
  let cs := Text.lowerCase (withoutMarks text)
  if cs.isEmpty then throw .emptyNumber
  let (negative, cs) := takeSign cs
  if cs == ".nan".toList then return .nan
  let size ← if cs == ".inf".toList then pure (.infinite false) else realMagnitude cs
  return if negative then size.negate else size

def truthValue (text : String) : Except Fault Bool :=
  let word := String.ofList (Text.lowerCase text.toList)
  if ["yes", "true", "on"].contains word then .ok true
  else if ["no", "false", "off"].contains word then .ok false
  else .error (.truthWord word)

def timestampValue (text : String) : Except Fault Value := do
  let some stamp := Timestamp.read? (withoutFinalFeed text).toList | throw .timestamp
  match stamp.time with
  | none => .date <$> stamp.date.check.mapError .calendar
  | some time => .moment <$> (stamp.moment time).check.mapError .calendar

def binaryValue (text : String) : Except Fault Value :=
  match Text.Base64.decode? text with
  | some bytes => if text.toList.all (·.toNat < 128) then .ok (.bytes bytes) else .error .malformed
  | none => .error .malformed

def lowerCodes (codes : List Nat) : List Nat :=
  codes.flatMap fun n =>
    if n.isValidChar then (Text.lowerChar (Char.ofNat n)).map (·.toNat) else [n]

def brokenValue (tag : String) (codes : List Nat) : Except Fault Value :=
  if tag = commonTag "str" then .ok (.brokenText codes)
  else if tag = commonTag "bool" then .error (.brokenTruthWord (lowerCodes codes))
  else if tag = commonTag "timestamp" then .error .timestamp
  else .error .malformed

def scalarValue (tag : String) (text : ScalarText) : Except Fault Value :=
  if tag = commonTag "null" then .ok .null
  else
    match text with
    | .broken codes => brokenValue tag codes
    | .text text =>
      if tag = commonTag "str" then .ok (.text text)
      else if tag = commonTag "bool" then .boolean <$> truthValue text
      else if tag = commonTag "int" then .integer <$> integerValue text
      else if tag = commonTag "float" then .real <$> realValue text
      else if tag = commonTag "timestamp" then timestampValue text
      else if tag = commonTag "binary" then binaryValue text
      else .error .malformed

end SchemaScript.Yaml
