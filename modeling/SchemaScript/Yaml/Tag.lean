import SchemaScript.Calendar

/-!
Types of nodes. A scalar without quotes and without a tag gets its type from its form: a truth
value, a number, a time, nothing at all, or else text.
-/

namespace SchemaScript.Yaml

def commonTag (name : String) : String := "tag:yaml.org,2002:" ++ name

namespace Form

def isDigit (c : Char) : Bool := '0' ≤ c && c ≤ '9'

def isDigitMark (c : Char) : Bool := isDigit c || c == '_'

def unsigned : List Char → List Char
  | '+' :: rest => rest
  | '-' :: rest => rest
  | cs => cs

def isNonEmpty (test : Char → Bool) (cs : List Char) : Bool := !cs.isEmpty && cs.all test

def isSixtieth : List Char → Bool
  | [a] => isDigit a
  | [a, b] => '0' ≤ a && a ≤ '5' && isDigit b
  | _ => false

def colonParts (cs : List Char) : List (List Char) := (cs.splitOn ':').drop 1

def isInteger (cs : List Char) : Bool :=
  match unsigned cs with
  | ['0'] => true
  | '0' :: 'b' :: rest => isNonEmpty (fun c => c == '0' || c == '1' || c == '_') rest
  | '0' :: 'x' :: rest =>
    isNonEmpty (fun c => isDigitMark c || ('a' ≤ c && c ≤ 'f') || ('A' ≤ c && c ≤ 'F')) rest
  | '0' :: rest => rest.all fun c => ('0' ≤ c && c ≤ '7') || c == '_'
  | first :: rest =>
    isDigit first && (rest.takeWhile (· != ':')).all isDigitMark && (colonParts rest).all isSixtieth
  | [] => false

def isExponent : List Char → Bool
  | [] => true
  | mark :: sign :: digits =>
    (mark == 'e' || mark == 'E') && (sign == '+' || sign == '-') && isNonEmpty isDigit digits
  | _ => false

def isFraction (cs : List Char) : Bool := isExponent (cs.dropWhile isDigitMark)

def isInfinity (cs : List Char) : Bool :=
  [".inf", ".Inf", ".INF"].any fun word => cs == word.toList

def isNotNumber (cs : List Char) : Bool :=
  [".nan", ".NaN", ".NAN"].any fun word => cs == word.toList

def isSexagesimal (whole after : List Char) : Bool :=
  (whole.takeWhile (· != ':')).all isDigitMark && (colonParts whole).all isSixtieth &&
    !(colonParts whole).isEmpty && after.all isDigitMark

def isReal (cs : List Char) : Bool :=
  match cs with
  | '.' :: first :: rest =>
    (isDigit first && isFraction rest) || isInfinity cs || isNotNumber cs
  | _ =>
    match unsigned cs with
    | '.' :: _ => isInfinity (unsigned cs)
    | first :: rest =>
      let whole := rest.takeWhile (· != '.')
      match rest.dropWhile (· != '.') with
      | '.' :: after =>
        isDigit first && (whole.all isDigitMark && isFraction after || isSexagesimal whole after)
      | _ => false
    | [] => false

def isTruth (text : String) : Bool :=
  ["yes", "Yes", "YES", "no", "No", "NO", "true", "True", "TRUE", "false", "False", "FALSE",
    "on", "On", "ON", "off", "Off", "OFF"].contains text

def isNothing (text : String) : Bool := ["", "~", "null", "Null", "NULL"].contains text

end Form

structure WrittenTime where
  hour : List Char
  minute : List Char
  second : List Char
  fraction : List Char
  offset : Option Int

/-- A written date, perhaps with a time. -/
structure Timestamp where
  year : List Char
  month : List Char
  day : List Char
  time : Option WrittenTime

namespace Timestamp

open Form

def digits? (least most : Nat) (cs : List Char) : Option (List Char × List Char) :=
  let run := (cs.take most).takeWhile isDigit
  if run.length < least then none else some (run, cs.drop run.length)

def mark? (c : Char) : List Char → Option (List Char)
  | d :: rest => if c == d then some rest else none
  | [] => none

def number (digits : List Char) : Nat := digits.foldl (fun n c => n * 10 + (c.toNat - 48)) 0

def isBlank (c : Char) : Bool := c == ' ' || c == '\t'

def separator? : List Char → Option (List Char)
  | c :: rest =>
    if c == 'T' || c == 't' then some rest
    else if isBlank c then some (rest.dropWhile isBlank)
    else none
  | [] => none

def zone? (cs : List Char) : Option (Option Int) :=
  match cs.dropWhile isBlank with
  | [] => if cs.isEmpty then some none else none
  | ['Z'] => some (some 0)
  | sign :: rest => do
    if sign != '+' && sign != '-' then none
    let (hours, rest) ← digits? 1 2 rest
    let minutes ←
      match rest with
      | [] => some []
      | ':' :: rest => do
        let (minutes, rest) ← digits? 2 2 rest
        if rest.isEmpty then some minutes else none
      | _ => none
    let seconds : Int := number hours * 3600 + number minutes * 60
    return some (if sign == '-' then -seconds else seconds)

def time? (cs : List Char) : Option WrittenTime := do
  let (hour, rest) ← digits? 1 2 cs
  let (minute, rest) ← digits? 2 2 (← mark? ':' rest)
  let (second, rest) ← digits? 2 2 (← mark? ':' rest)
  let (fraction, rest) :=
    match rest with
    | '.' :: rest => rest.span isDigit
    | _ => ([], rest)
  return ⟨hour, minute, second, fraction, ← zone? rest⟩

def read? (cs : List Char) : Option Timestamp := do
  let (year, rest) ← digits? 4 4 cs
  let (month, rest) ← digits? 1 2 (← mark? '-' rest)
  let (day, rest) ← digits? 1 2 (← mark? '-' rest)
  if rest.isEmpty then return ⟨year, month, day, none⟩
  return ⟨year, month, day, some (← time? (← separator? rest))⟩

/-- A date alone is known by its form only if month and day have two digits. -/
def isKnownByForm (stamp : Timestamp) : Bool :=
  stamp.time.isSome || (stamp.month.length == 2 && stamp.day.length == 2)

def microseconds (fraction : List Char) : Nat :=
  let kept := fraction.take 6
  number (kept ++ List.replicate (6 - kept.length) '0')

def date (stamp : Timestamp) : Date := ⟨number stamp.year, number stamp.month, number stamp.day⟩

def moment (stamp : Timestamp) (time : WrittenTime) : Moment :=
  ⟨stamp.date, number time.hour, number time.minute, number time.second,
    microseconds time.fraction, time.offset⟩

end Timestamp

def withoutFinalFeed (text : String) : String :=
  match text.toList.reverse with
  | '\n' :: rest => String.ofList rest.reverse
  | _ => text

/-- The tag of a scalar by its form. A line feed at the end makes no difference to a form. -/
def tagOfForm (text : String) : String :=
  let text := if text == "\n" then text else withoutFinalFeed text
  let cs := text.toList
  if Form.isNothing text then commonTag "null"
  else if Form.isTruth text then commonTag "bool"
  else if Form.isInteger cs then commonTag "int"
  else if Form.isReal cs then commonTag "float"
  else if (Timestamp.read? cs).any (·.isKnownByForm) then commonTag "timestamp"
  else if text == "<<" then commonTag "merge"
  else if text == "=" then commonTag "value"
  else commonTag "str"

end SchemaScript.Yaml
