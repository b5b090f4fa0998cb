import Predication.Database.Image.Page
import Predication.Sql.Value

/-!
Records: the values of a stored row. A list of codes says what each value is and how many bytes it
takes, and the bytes follow.
-/

namespace Predication.Image

open Sql (Value)

def fieldSize (code : Nat) : Nat :=
  match code with
  | 5 => 6
  | 6 => 8
  | 7 => 8
  | 8 => 0
  | 9 => 0
  | 10 => 0
  | 11 => 0
  | _ => if code < 5 then code else (code - 12) / 2

def unsignedBytes (b : ByteArray) : Nat :=
  b.toList.foldl (fun n x => 256 * n + x.toNat) 0

def signedBytes (b : ByteArray) : Int :=
  let n := unsignedBytes b
  let limit := Nat.pow 256 b.size
  if n < limit / 2 then n else (n : Int) - limit

def units (bigEndian : Bool) : List UInt8 → List Nat
  | a :: b :: rest =>
      (if bigEndian then 256 * a.toNat + b.toNat else 256 * b.toNat + a.toNat) ::
        units bigEndian rest
  | _ => []

/-- The code points that units of two bytes stand for; a surrogate takes the unit after it along. -/
def codePoints : List Nat → List Nat
  | a :: b :: rest =>
      if 0xd800 ≤ a ∧ a < 0xe000 then
        (0x10000 + (a - 0xd800) % 0x400 * 0x400 + b % 0x400) :: codePoints rest
      else a :: codePoints (b :: rest)
  | [a] => [a]
  | [] => []

/-- The form of a code point in UTF-8; that of half of a surrogate pair is not well formed. -/
def utf8Bytes (n : Nat) : List UInt8 :=
  let next (shift : Nat) : UInt8 := UInt8.ofNat (0x80 + n / Nat.pow 2 shift % 64)
  if n < 0x80 then [UInt8.ofNat n]
  else if n < 0x800 then [UInt8.ofNat (0xc0 + n / 64), next 0]
  else if n < 0x10000 then [UInt8.ofNat (0xe0 + n / 4096), next 6, next 0]
  else [UInt8.ofNat (0xf0 + n / 0x40000), next 12, next 6, next 0]

def decode (encoding : Encoding) (b : ByteArray) : Sql.Bytes :=
  match encoding with
  | .utf8 => b.toList
  | .utf16LittleEndian => (codePoints (units false b.toList)).flatMap utf8Bytes
  | .utf16BigEndian => (codePoints (units true b.toList)).flatMap utf8Bytes

def field (encoding : Encoding) (code : Nat) (b : ByteArray) : Value :=
  match code with
  | 0 => .null
  | 7 =>
      let bits := UInt64.ofNat (unsignedBytes b)
      if (Float.ofBits bits).isNaN then .null else .real bits
  | 8 => .integer 0
  | 9 => .integer 1
  | 10 => .null
  | 11 => .null
  | _ =>
      if code < 7 then .integer (signedBytes b)
      else if code % 2 = 1 then .text (decode encoding b)
      else .blob b.toList

def codes? (b : ByteArray) (stop : Nat) : Nat → Nat → Option (List Nat)
  | 0, _ => some []
  | fuel + 1, i =>
      if stop ≤ i then some []
      else
        match varint? b i with
        | none => none
        | some (code, next) => (codes? b stop fuel next).map (code :: ·)

def fieldsFrom? (encoding : Encoding) (b : ByteArray) : Nat → List Nat → Option (List Value)
  | _, [] => some []
  | i, code :: codes =>
      let part := b.extract i (i + fieldSize code)
      if part.size < fieldSize code then none
      else (fieldsFrom? encoding b (i + fieldSize code) codes).map (field encoding code part :: ·)

def fields? (encoding : Encoding) (record : ByteArray) : Option (List Value) := do
  if record.isEmpty then return []
  let (stop, i) ← varint? record 0
  let codes ← codes? record stop stop i
  fieldsFrom? encoding record stop codes

end Predication.Image
