import SchemaScript.Number.Numeral

/-!
Binary floating point with 53 bits, computed in whole numbers. A finite number is its mantissa
times a power of two; the mantissa has 53 bits unless the exponent is the least.
-/

namespace SchemaScript.Number

inductive Binary64
  | finite (negative : Bool) (mantissa : Nat) (exponent : Int)
  | infinite (negative : Bool)
  | nan
deriving DecidableEq, Repr

namespace Binary64

def leastExponent : Int := -1074

def nought (negative : Bool) : Binary64 := .finite negative 0 leastExponent

def divideRounded (num den : Nat) : Nat :=
  let q := num / den
  let r := num % den
  if 2 * r < den then q else if den < 2 * r then q + 1 else q + q % 2

def scaled (num den : Nat) (exponent : Int) : Nat × Nat :=
  if 0 ≤ exponent then (num, den * Nat.pow 2 exponent.toNat)
  else (num * Nat.pow 2 (-exponent).toNat, den)

def ofQuotient (negative : Bool) (num den : Nat) : Binary64 :=
  if num = 0 then nought negative
  else
    let guess : Int := (Nat.log2 num : Int) - Nat.log2 den - 53
    let (n, d) := scaled num den guess
    let fitting := if n / d < Nat.pow 2 53 then guess else guess + 1
    let exponent := if fitting < leastExponent then leastExponent else fitting
    let (n, d) := scaled num den exponent
    let mantissa := divideRounded n d
    let (mantissa, exponent) :=
      if mantissa = Nat.pow 2 53 then (Nat.pow 2 52, exponent + 1) else (mantissa, exponent)
    if 971 < exponent then .infinite negative else .finite negative mantissa exponent

/-- The number nearest to `digits` times a power of ten. Far outside the range the power itself
is never computed. -/
def ofDecimal (negative : Bool) (digits : Nat) (power : Int) : Binary64 :=
  if digits = 0 then nought negative
  else if power + (Nat.log2 digits / 4 : Nat) > 400 then .infinite negative
  else if power + (Nat.log2 digits : Int) < -800 then nought negative
  else if 0 ≤ power then ofQuotient negative (digits * Nat.pow 10 power.toNat) 1
  else ofQuotient negative digits (Nat.pow 10 (-power).toNat)

def ofInt (n : Int) : Binary64 := ofQuotient (n < 0) n.natAbs 1

def quotient? : Binary64 → Option (Int × Nat)
  | .finite negative mantissa exponent =>
    let (n, d) := scaled mantissa 1 (-exponent)
    let n : Int := n
    some (if negative then -n else n, d)
  | _ => none

def integral? (x : Binary64) : Option Int :=
  match x.quotient? with
  | some (n, d) => if n % d = 0 then some (n / d) else none
  | none => none

def negate : Binary64 → Binary64
  | .finite negative mantissa exponent => .finite (!negative) mantissa exponent
  | .infinite negative => .infinite (!negative)
  | .nan => .nan

def isNegative : Binary64 → Bool
  | .finite negative _ _ => negative
  | .infinite negative => negative
  | .nan => false

/-- Equality of value: the two noughts are equal, and so is what is not a number to itself. -/
def sameValue : Binary64 → Binary64 → Bool
  | .finite a m e, .finite b n f => (m = 0 && n = 0) || (a = b && m = n && e = f)
  | .infinite a, .infinite b => a = b
  | .nan, .nan => true
  | _, _ => false

def add (x y : Binary64) : Binary64 :=
  match x, y with
  | .nan, _ => .nan
  | _, .nan => .nan
  | .infinite a, .infinite b => if a = b then .infinite a else .nan
  | .infinite a, _ => .infinite a
  | _, .infinite b => .infinite b
  | x, y =>
    match x.quotient?, y.quotient? with
    | some (n, d), some (m, f) =>
      let sum := n * f + m * d
      if sum = 0 then nought (x.isNegative && y.isNegative)
      else ofQuotient (sum < 0) sum.natAbs (d * f)
    | _, _ => .nan

def multiply (x y : Binary64) : Binary64 :=
  let negative := x.isNegative != y.isNegative
  match x, y with
  | .nan, _ => .nan
  | _, .nan => .nan
  | .infinite _, .finite _ 0 _ => .nan
  | .finite _ 0 _, .infinite _ => .nan
  | .infinite _, _ => .infinite negative
  | _, .infinite _ => .infinite negative
  | x, y =>
    match x.quotient?, y.quotient? with
    | some (n, d), some (m, f) => ofQuotient negative (n * m).natAbs (d * f)
    | _, _ => .nan

def leadingPower (num den : Nat) : Int :=
  let bits : Int := (Nat.log2 num : Int) - Nat.log2 den
  let guess := (bits - 1) * 30103 / 100000
  let reaches (power : Int) : Bool :=
    if 0 ≤ power then den * Nat.pow 10 power.toNat ≤ num
    else den ≤ num * Nat.pow 10 (-power).toNat
  if reaches (guess + 2) then guess + 2
  else if reaches (guess + 1) then guess + 1
  else if reaches guess then guess
  else guess - 1

def neighbours (num den : Nat) (power : Int) : List Nat :=
  let (n, d) :=
    if 0 ≤ power then (num, den * Nat.pow 10 power.toNat)
    else (num * Nat.pow 10 (-power).toNat, den)
  let below := n / d
  let near := divideRounded n d
  if near = below then [below, below + 1] else [below + 1, below]

/-- The fewest digits that read back, and the power of ten of the last of them. -/
def shortestDigits (negative : Bool) (num den : Nat) (x : Binary64) : Nat × Int :=
  let top := leadingPower num den
  let hit? (count : Nat) : Option (Nat × Int) :=
    let power := top - count
    ((neighbours num den power).find? fun digits => ofDecimal negative digits power == x).map
      (·, power)
  ((List.range 17).findSome? hit?).getD (0, 0)

def positional (digits : List Char) (point : Int) : List Char :=
  if point ≤ 0 then
    ['0', '.'] ++ List.replicate (-point).toNat '0' ++ digits
  else if (digits.length : Int) ≤ point then
    digits ++ List.replicate (point.toNat - digits.length) '0' ++ ['.', '0']
  else digits.take point.toNat ++ ['.'] ++ digits.drop point.toNat

def scientific (digits : List Char) (point : Int) : List Char :=
  let exponent := point - 1
  let size := (toString exponent.natAbs).toList
  digits.take 1 ++ (if digits.length = 1 then [] else '.' :: digits.drop 1) ++
    ['e', if exponent < 0 then '-' else '+'] ++
    (if size.length = 1 then '0' :: size else size)

/-- Positional from 0.0001 up to sixteen digits before the point, scientific outside. -/
def text : Binary64 → String
  | .nan => "nan"
  | .infinite negative => if negative then "-inf" else "inf"
  | .finite negative mantissa exponent =>
    let sign := if negative then "-" else ""
    if mantissa = 0 then sign ++ "0.0"
    else
      let (num, den) := scaled mantissa 1 (-exponent)
      let (digits, power) := shortestDigits negative num den (.finite negative mantissa exponent)
      let shown := (toString digits).toList
      let point := power + shown.length
      let kept := (shown.reverse.dropWhile (· == '0')).reverse
      let body :=
        if -4 < point && point ≤ 16 then positional kept point else scientific kept point
      sign ++ String.ofList body

def decimalRun (cs : List Char) : List Char × List Char := cs.span Text.isDecimal

def digitsOf (cs : List Char) : List Nat := cs.filterMap Text.digitValue?

def takeExponent : List Char → Int × List Char
  | c :: rest =>
    if c.toLower = 'e' then
      let (negative, after) := takeSign rest
      match decimalRun after with
      | ([], _) => (0, c :: rest)
      | (run, remainder) =>
        let size : Int := digitsValue 10 (digitsOf run)
        (if negative then -size else size, remainder)
    else (0, c :: rest)
  | [] => (0, [])

def read? (written : String) : Option Binary64 :=
  let stripped := Text.trimBoth isNumeralBlank written.toList
  let (negative, cs) := takeSign stripped
  let word := cs.map Char.toLower
  if word = "inf".toList || word = "infinity".toList then some (.infinite negative)
  else if word = "nan".toList then some .nan
  else
    let (whole, rest) := decimalRun cs
    let (fraction, rest) :=
      match rest with
      | '.' :: after => decimalRun after
      | _ => ([], rest)
    if whole.isEmpty && fraction.isEmpty then none
    else
      let (exponent, rest) := takeExponent rest
      if !rest.isEmpty then none
      else
        some (ofDecimal negative (digitsValue 10 (digitsOf (whole ++ fraction)))
          (exponent - fraction.length))

end Binary64

end SchemaScript.Number
