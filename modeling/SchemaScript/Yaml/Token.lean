import SchemaScript.Calendar
import SchemaScript.Number.Numeral
import SchemaScript.Value

/-!
Tokens of a document: marks of structure, properties of nodes and scalars, whose escapes can write
lone surrogates. A text that cannot be read on has a fault; most faults of form are alike to a
reader of messages, those of a scalar that claims a type say what is wrong with it.
-/

namespace SchemaScript.Yaml

inductive Fault
  | malformed
  | numeral (fault : Number.NumeralFault)
  | decimal (text : String)
  | calendar (fault : CalendarFault)
  | codePoint
  /-- An escape that does not even fit a machine word. -/
  | codeWord
  | truthWord (word : String)
  | brokenTruthWord (codes : List Nat)
  | emptyNumber
  /-- A part of a number in base 60 counts for more than the greatest real number. -/
  | powerOfSixty
  | timestamp
  | timestampMapping
deriving DecidableEq, Repr

/-- Whether a fault is of the kinds that a reader of many documents notes and goes on. -/
def Fault.isOrdinary : Fault → Bool
  | .codeWord => false
  | .truthWord _ => false
  | .brokenTruthWord _ => false
  | .emptyNumber => false
  | .powerOfSixty => false
  | .timestamp => false
  | .timestampMapping => false
  | _ => true

def Fault.message : Fault → String
  | .malformed => "YAML parse error: <yaml>"
  | .numeral fault => fault.message
  | .decimal text => "could not convert string to float: " ++ Text.quoted text
  | .calendar fault => fault.message
  | .codePoint => "chr() arg not in range(0x110000)"
  | .codeWord => "Python int too large to convert to C int"
  | .truthWord word => Text.quoted word
  | .brokenTruthWord codes => shownCodes codes
  | .emptyNumber => "string index out of range"
  | .powerOfSixty => "int too large to convert to float"
  | .timestamp => "'NoneType' object has no attribute 'groupdict'"
  | .timestampMapping => "expected string or bytes-like object, got 'list'"

inductive ScalarText
  | text (value : String)
  | broken (codes : List Nat)
deriving DecidableEq, Repr

namespace ScalarText

def ofChars (chars : List Char) : ScalarText := .text (String.ofList chars)

def ofCodes (codes : List Nat) : ScalarText :=
  if codes.all fun n => decide n.isValidChar then ofChars (codes.map Char.ofNat)
  else .broken codes

end ScalarText

inductive Directive
  | version (major minor : Nat)
  | tag (handle lead : String)
  | other
deriving DecidableEq, Repr

inductive Token
  | directive (directive : Directive)
  | documentStart
  | documentEnd
  | streamEnd
  | blockSequenceStart
  | blockMappingStart
  | blockEnd
  | flowSequenceStart
  | flowSequenceEnd
  | flowMappingStart
  | flowMappingEnd
  | flowEntry
  | blockEntry
  | key
  | value
  | alias (name : String)
  | anchor (name : String)
  | tag (handle : Option String) (suffix : String)
  | scalar (content : ScalarText) (plain : Bool)
  | broken (fault : Fault)
deriving DecidableEq, Repr

end SchemaScript.Yaml
