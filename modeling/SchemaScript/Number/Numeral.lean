import SchemaScript.Text.Character
import SchemaScript.Text.Quoted

/-!
Sums of counts, and whole numbers as text. White space may surround a numeral and single
underscores may part its digits; a sign comes first, then for bases other than ten the mark of the
base, if any.
-/

namespace SchemaScript.Number

open Text

def total : List Nat → Nat
  | [] => 0
  | count :: rest => count + total rest

@[simp] theorem total_nil : total [] = 0 := rfl

@[simp] theorem total_cons (count : Nat) (rest : List Nat) :
    total (count :: rest) = count + total rest := rfl

@[simp] theorem total_append (a b : List Nat) : total (a ++ b) = total a + total b := by
  induction a with
  | nil => simp
  | cons count rest ih =>
    simp only [List.cons_append, total_cons, ih]
    omega

@[simp] theorem total_reverse (counts : List Nat) : total counts.reverse = total counts := by
  induction counts with
  | nil => rfl
  | cons count rest ih =>
    simp only [List.reverse_cons, total_append, total_cons, total_nil, ih]
    omega

theorem le_total_of_mem {counts : List Nat} {n : Nat} (h : n ∈ counts) : n ≤ total counts := by
  induction counts with
  | nil => cases h
  | cons count rest ih =>
    rcases List.mem_cons.1 h with rfl | h
    · exact Nat.le_add_right _ _
    · exact Nat.le_trans (ih h) (Nat.le_add_left _ _)

inductive NumeralFault
  | malformed (base : Nat) (text : String)
  | tooLong (digits : Nat)
deriving DecidableEq, Repr

def maximalDigits : Nat := 4300

def NumeralFault.message : NumeralFault → String
  | .malformed base text =>
    "invalid literal for int() with base " ++ toString base ++ ": " ++ quoted text
  | .tooLong digits =>
    "Exceeds the limit (" ++ toString maximalDigits ++
      " digits) for integer string conversion: value has " ++ toString digits ++
      " digits; use sys.set_int_max_str_digits() to increase the limit"

/-- White space around a numeral. The ASCII separator controls do not count here. -/
def isNumeralBlank (c : Char) : Bool := isBlank c && !(28 ≤ c.toNat && c.toNat ≤ 31)

def digitIn? (base : Nat) (c : Char) : Option Nat :=
  let value? :=
    if 'a' ≤ c && c ≤ 'z' then some (c.toNat - 87)
    else if 'A' ≤ c && c ≤ 'Z' then some (c.toNat - 55)
    else digitValue? c
  value?.filter (· < base)

/-- Takes the digits at the front. An underscore counts only between digits, or after the mark of
the base. -/
def takeDigits (base : Nat) : (mayPart : Bool) → List Char → List Nat × List Char
  | _, [] => ([], [])
  | mayPart, c :: rest =>
    match digitIn? base c with
    | some d =>
      let (digits, after) := takeDigits base true rest
      (d :: digits, after)
    | none =>
      if c = '_' && mayPart then
        match takeDigits base false rest with
        | ([], _) => ([], c :: rest)
        | taken => taken
      else ([], c :: rest)

def takeSign : List Char → Bool × List Char
  | '-' :: rest => (true, rest)
  | '+' :: rest => (false, rest)
  | cs => (false, cs)

def baseMark? : Nat → Option Char
  | 2 => some 'b'
  | 8 => some 'o'
  | 16 => some 'x'
  | _ => none

def takeBaseMark (base : Nat) : List Char → Bool × List Char
  | '0' :: c :: rest =>
    if baseMark? base = some c.toLower then (true, rest) else (false, '0' :: c :: rest)
  | cs => (false, cs)

def digitsValue (base : Nat) (digits : List Nat) : Nat :=
  digits.foldl (fun value d => value * base + d) 0

def readInteger (base : Nat) (text : String) : Except NumeralFault Int :=
  let (negative, cs) := takeSign (text.toList.dropWhile isNumeralBlank)
  let (marked, cs) := takeBaseMark base cs
  let (digits, after) := takeDigits base marked cs
  if digits.isEmpty then .error (.malformed base text)
  else if base = 10 && digits.length > maximalDigits then .error (.tooLong digits.length)
  else if !(after.dropWhile isNumeralBlank).isEmpty then .error (.malformed base text)
  else
    let magnitude : Int := digitsValue base digits
    .ok (if negative then -magnitude else magnitude)

end SchemaScript.Number
