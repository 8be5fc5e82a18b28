import SchemaScript.Calendar
import SchemaScript.Number.Binary64

/-!
Values of documents and of log data, and how they are written: for messages with quoted texts, and
as JSON on one line in ASCII. A mapping lists its entries in order; its keys need not be text.
-/

namespace SchemaScript

open Number

inductive Value
  | null
  | boolean (value : Bool)
  | integer (value : Int)
  | real (value : Binary64)
  | text (value : String)
  /-- Code points that are not all characters: some of them are lone surrogates. -/
  | brokenText (codes : List Nat)
  | bytes (value : List UInt8)
  | date (value : Date)
  | moment (value : Moment)
  | list (items : List Value)
  | pair (first second : Value)
  | set (items : List Value)
  | mapping (entries : List (Value × Value))
deriving Inhabited, Repr

namespace Value

def typeName : Value → String
  | .null => "NoneType"
  | .boolean _ => "bool"
  | .integer _ => "int"
  | .real _ => "float"
  | .text _ => "str"
  | .brokenText _ => "str"
  | .bytes _ => "bytes"
  | .date _ => "date"
  | .moment _ => "datetime"
  | .list _ => "list"
  | .pair _ _ => "tuple"
  | .set _ => "set"
  | .mapping _ => "dict"

def integer? : Value → Option Int
  | .boolean value => some (if value then 1 else 0)
  | .integer value => some value
  | _ => none

/-- Whether two values are the same key of a mapping. Numbers are compared by value. Collections
are no keys. -/
def sameKey : Value → Value → Bool
  | .null, .null => true
  | .text a, .text b => a == b
  | .brokenText a, .brokenText b => a == b
  | .bytes a, .bytes b => a == b
  | .date a, .date b => a == b
  | .moment a, .moment b => a.same b
  | .real a, .real b => a.sameValue b
  | .real a, b => a.integral?.isSome && a.integral? == b.integer?
  | a, .real b => b.integral?.isSome && b.integral? == a.integer?
  | a, b => a.integer?.isSome && a.integer? == b.integer?

/-- Sets an entry. A key that is there keeps its place and its spelling. -/
def putEntry {α : Type} (entries : List (Value × α)) (key : Value) (value : α) :
    List (Value × α) :=
  match entries with
  | [] => [(key, value)]
  | (k, v) :: rest =>
    if k.sameKey key then (k, value) :: rest else (k, v) :: putEntry rest key value

def field? (entries : List (Value × Value)) (name : String) : Option Value :=
  match entries with
  | [] => none
  | (.text key, value) :: rest => if key = name then some value else field? rest name
  | _ :: rest => field? rest name

mutual

def isUnicode : Value → Bool
  | .brokenText _ => false
  | .list items => areUnicode items
  | .pair first second => first.isUnicode && second.isUnicode
  | .set items => areUnicode items
  | .mapping entries => entriesAreUnicode entries
  | _ => true

def areUnicode : List Value → Bool
  | [] => true
  | item :: items => item.isUnicode && areUnicode items

def entriesAreUnicode : List (Value × Value) → Bool
  | [] => true
  | (key, value) :: entries => key.isUnicode && value.isUnicode && entriesAreUnicode entries

end

end Value

open Text Number

def shownByte (quote : Char) (b : UInt8) : List Char :=
  let c := Char.ofNat b.toNat
  if c = quote || c = '\\' || c = '\t' || c = '\n' || c = '\r' || isPrintable c && b < 127 then
    escapeChar quote c
  else escapeCode b.toNat

def shownBytes (bytes : List UInt8) : String :=
  let quote := enclosingQuote (bytes.map fun b => Char.ofNat b.toNat)
  String.ofList ('b' :: quote :: bytes.flatMap (shownByte quote) ++ [quote])

def shownCodes (codes : List Nat) : String :=
  let chars := codes.map Char.ofNat
  let quote := enclosingQuote chars
  let shownCode (n : Nat) : List Char :=
    if n.isValidChar then escapeChar quote (Char.ofNat n) else escapeCode n
  String.ofList (quote :: codes.flatMap shownCode ++ [quote])

def curly (parts : List String) : String := "\x7b" ++ ", ".intercalate parts ++ "\x7d"

mutual

def Value.shown : Value → String
  | .null => "None"
  | .boolean value => if value then "True" else "False"
  | .integer value => toString value
  | .real value => value.text
  | .text value => quoted value
  | .brokenText codes => shownCodes codes
  | .bytes value => shownBytes value
  | .date value => value.text
  | .moment value => value.text
  | .list items => "[" ++ ", ".intercalate (shownItems items) ++ "]"
  | .pair first second => "(" ++ first.shown ++ ", " ++ second.shown ++ ")"
  | .set items => if items.isEmpty then "set()" else curly (shownItems items)
  | .mapping entries => curly (shownEntries entries)

def shownItems : List Value → List String
  | [] => []
  | item :: items => item.shown :: shownItems items

def shownEntries : List (Value × Value) → List String
  | [] => []
  | (key, value) :: entries => (key.shown ++ ": " ++ value.shown) :: shownEntries entries

end

def Value.plain : Value → String
  | .text value => value
  | .date value => value.isoText
  | value => value.shown

/-- Whether a value counts as present: nothing, nought and what is empty do not. -/
def Value.isPresent : Value → Bool
  | .null => false
  | .boolean value => value
  | .integer value => value != 0
  | .real (.finite _ mantissa _) => mantissa != 0
  | .text value => !value.isEmpty
  | .brokenText codes => !codes.isEmpty
  | .bytes value => !value.isEmpty
  | .list items => !items.isEmpty
  | .set items => !items.isEmpty
  | .mapping entries => !entries.isEmpty
  | _ => true

def Value.pathPart : Value → String
  | .text value => value
  | .boolean value => if value then "1" else "0"
  | .brokenText codes =>
    String.ofList (codes.flatMap fun n =>
      if n.isValidChar then [Char.ofNat n] else ['\uFFFD', '\uFFFD', '\uFFFD'])
  | value => value.shown

end SchemaScript

namespace SchemaScript.Json

open Text Number

def units16 (n : Nat) : List Nat :=
  if n < 0x10000 then [n] else [0xD800 + (n - 0x10000) / 0x400, 0xDC00 + (n - 0x10000) % 0x400]

def escapedUnits (n : Nat) : List Char :=
  (units16 n).flatMap fun unit => ['\\', 'u'] ++ hexDigits 4 unit

def escapedChar (c : Char) : List Char :=
  if c = doubleQuote then ['\\', doubleQuote]
  else if c = '\\' then ['\\', '\\']
  else if c = '\n' then ['\\', 'n']
  else if c = '\r' then ['\\', 'r']
  else if c = '\t' then ['\\', 't']
  else if c = '\x08' then ['\\', 'b']
  else if c = '\x0c' then ['\\', 'f']
  else if 32 ≤ c.toNat && c.toNat < 127 then [c]
  else escapedUnits c.toNat

def string (text : String) : String :=
  String.ofList (doubleQuote :: text.toList.flatMap escapedChar ++ [doubleQuote])

def number (x : Binary64) : String :=
  match x with
  | .nan => "NaN"
  | .infinite negative => if negative then "-Infinity" else "Infinity"
  | x => x.text

def memberName : Value → String
  | .null => "null"
  | .boolean value => if value then "true" else "false"
  | .real value => number value
  | value => value.plain

mutual

def ofValue : Value → String
  | .null => "null"
  | .boolean value => if value then "true" else "false"
  | .integer value => toString value
  | .real value => number value
  | .text value => string value
  | .list items => "[" ++ ", ".intercalate (ofItems items) ++ "]"
  | .pair first second => "[" ++ ofValue first ++ ", " ++ ofValue second ++ "]"
  | .mapping entries => curly (ofEntries entries)
  | value => string value.plain

def ofItems : List Value → List String
  | [] => []
  | item :: items => ofValue item :: ofItems items

def ofEntries : List (Value × Value) → List String
  | [] => []
  | (key, value) :: entries =>
    (string (memberName key) ++ ": " ++ ofValue value) :: ofEntries entries

end

end SchemaScript.Json
