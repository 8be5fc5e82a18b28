import SchemaScript.Text.Character

/-!
Reading UTF-8 and base 64. A sequence of UTF-8 is refused at the first byte that cannot continue
it. Files are read in blocks; a sequence cut by the end of a block waits for the next one, and a
position counts from the first byte still waiting. In base 64 characters outside the alphabet are
passed over, and padding counts only where it fills up a group of four.
-/

namespace SchemaScript.Text.Utf8

inductive Defect
  | invalidStart
  | invalidContinuation
  | unexpectedEnd
deriving DecidableEq, Repr

def Defect.message : Defect → String
  | .invalidStart => "invalid start byte"
  | .invalidContinuation => "invalid continuation byte"
  | .unexpectedEnd => "unexpected end of data"

structure Fault where
  first : UInt8
  length : Nat
  position : Nat
  defect : Defect
deriving DecidableEq, Repr

def Fault.message (fault : Fault) : String :=
  let place :=
    if fault.length = 1 then
      "byte 0x" ++ String.ofList (hexDigits 2 fault.first.toNat) ++
        " in position " ++ toString fault.position
    else
      "bytes in position " ++ toString fault.position ++ "-" ++
        toString (fault.position + fault.length - 1)
  "'utf-8' codec can't decode " ++ place ++ ": " ++ fault.defect.message

/-- What a first byte asks for: its own bits, the continuation bytes that follow, and the bounds
of the first of these. -/
structure Lead where
  bits : Nat
  rest : Nat
  least : Nat
  greatest : Nat

def lead? (byte : UInt8) : Option Lead :=
  let b := byte.toNat
  if b < 0x80 then some ⟨b, 0, 0, 0⟩
  else if b < 0xC2 then none
  else if b < 0xE0 then some ⟨b - 0xC0, 1, 0x80, 0xBF⟩
  else if b = 0xE0 then some ⟨0, 2, 0xA0, 0xBF⟩
  else if b = 0xED then some ⟨13, 2, 0x80, 0x9F⟩
  else if b < 0xF0 then some ⟨b - 0xE0, 2, 0x80, 0xBF⟩
  else if b = 0xF0 then some ⟨0, 3, 0x90, 0xBF⟩
  else if b < 0xF4 then some ⟨b - 0xF0, 3, 0x80, 0xBF⟩
  else if b = 0xF4 then some ⟨4, 3, 0x80, 0x8F⟩
  else none

def continuation : (rest least greatest bits good : Nat) → List UInt8 → Except (Nat × Defect) Nat
  | 0, _, _, bits, _, _ => .ok bits
  | _ + 1, _, _, _, good, [] => .error (good, .unexpectedEnd)
  | rest + 1, least, greatest, bits, good, b :: bytes =>
    if least ≤ b.toNat && b.toNat ≤ greatest then
      continuation rest 0x80 0xBF (bits * 64 + (b.toNat - 0x80)) (good + 1) bytes
    else .error (good, .invalidContinuation)

def front (byte : UInt8) (bytes : List UInt8) : Except (Nat × Defect) (Char × Nat) :=
  match lead? byte with
  | none => .error (1, .invalidStart)
  | some lead =>
    match continuation lead.rest lead.least lead.greatest lead.bits 1 bytes with
    | .ok code => .ok (Char.ofNat code, lead.rest + 1)
    | .error defect => .error defect

def blockSize : Nat := 8192

/-- Where positions count from while `length` bytes from `offset` are looked at: a sequence that
runs past the end of its block waits for the next block, which then starts with it. -/
def originOf (origin offset length : Nat) : Nat :=
  if offset / blockSize < (offset + length - 1) / blockSize then offset else origin

def originAfter (origin offset length : Nat) : Nat :=
  if (offset + length) % blockSize = 0 then offset + length else originOf origin offset length

def startsSurrogate (byte : UInt8) (bytes : List UInt8) : Bool :=
  byte == 0xED && bytes.head?.any fun b => 0xA0 ≤ b && b ≤ 0xBF

/-- Where positions count from for a byte that does not continue its sequence. The start of a
surrogate is refused only when a third byte is there, or at the end of the file. -/
def originOfDefect (origin offset length : Nat) (byte : UInt8) (bytes : List UInt8) : Nat :=
  if startsSurrogate byte bytes then
    if bytes.length = 1 then offset else originOf origin offset 3
  else originOf origin offset (length + 1)

/-- Decodes bytes that start at `offset` of the file; positions count from `origin`. The number
`skip` of bytes at the front already belongs to the last character. -/
def decodeFrom (origin offset : Nat) : (skip : Nat) → List UInt8 → Except Fault (List Char)
  | _, [] => .ok []
  | skip + 1, _ :: bytes => decodeFrom origin (offset + 1) skip bytes
  | 0, b :: bytes =>
    match front b bytes with
    | .ok (c, length) =>
      (decodeFrom (originAfter origin offset length) (offset + 1) (length - 1) bytes).map (c :: ·)
    | .error (length, .unexpectedEnd) => .error ⟨b, length, 0, .unexpectedEnd⟩
    | .error (length, .invalidStart) => .error ⟨b, length, offset - origin, .invalidStart⟩
    | .error (length, .invalidContinuation) =>
      .error ⟨b, length, offset - originOfDefect origin offset length b bytes,
        .invalidContinuation⟩

def decode (bytes : ByteArray) : Except Fault (List Char) := decodeFrom 0 0 0 bytes.toList

def decodeLossy : (skip : Nat) → List UInt8 → List Char
  | _, [] => []
  | skip + 1, _ :: bytes => decodeLossy skip bytes
  | 0, b :: bytes =>
    match front b bytes with
    | .ok (c, length) => c :: decodeLossy (length - 1) bytes
    | .error (length, _) => '\uFFFD' :: decodeLossy (length - 1) bytes

end SchemaScript.Text.Utf8

namespace SchemaScript.Text.Base64

def sixBits? (c : Char) : Option Nat :=
  if 'A' ≤ c && c ≤ 'Z' then some (c.toNat - 65)
  else if 'a' ≤ c && c ≤ 'z' then some (c.toNat - 71)
  else if '0' ≤ c && c ≤ '9' then some (c.toNat + 4)
  else if c == '+' then some 62
  else if c == '/' then some 63
  else none

/-- Reads on after `place` characters of a group, of which `carry` holds the bits not yet written
and `pads` counts the padding since. -/
def decodeFrom (place carry pads : Nat) : List Char → Option (List UInt8)
  | [] => if place = 0 then some [] else none
  | c :: rest =>
    if c == '=' then
      if place < 2 then decodeFrom place carry pads rest
      else if 4 ≤ place + pads + 1 then some []
      else decodeFrom place carry (pads + 1) rest
    else
      match sixBits? c with
      | none => decodeFrom place carry pads rest
      | some bits =>
        match place with
        | 0 => decodeFrom 1 bits 0 rest
        | 1 => (decodeFrom 2 (bits % 16) 0 rest).map (UInt8.ofNat (carry * 4 + bits / 16) :: ·)
        | 2 => (decodeFrom 3 (bits % 4) 0 rest).map (UInt8.ofNat (carry * 16 + bits / 4) :: ·)
        | _ => (decodeFrom 0 0 0 rest).map (UInt8.ofNat (carry * 64 + bits) :: ·)

def decode? (text : String) : Option (List UInt8) := decodeFrom 0 0 0 text.toList

end SchemaScript.Text.Base64
