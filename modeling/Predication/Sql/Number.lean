import Predication.Sql.Value
import Predication.Text.Decimal

namespace Predication.Sql

def dyadic? (bits : UInt64) : Option (Int × Int) :=
  let exponent := ((bits >>> 52) &&& 0x7ff).toNat
  let fraction := (bits &&& 0xfffffffffffff).toNat
  let sign : Int := if bits >>> 63 = 0 then 1 else -1
  if exponent = 0x7ff then none
  else if exponent = 0 then some (sign * fraction, -1074)
  else some (sign * (0x10000000000000 + fraction : Nat), (exponent : Int) - 1075)

def isNegativeReal (bits : UInt64) : Bool :=
  bits >>> 63 != 0

def realOfInt (n : Int) : UInt64 :=
  (Float.ofInt n).toBits

def truncateReal (bits : UInt64) : Int :=
  match dyadic? bits with
  | none => if isNegativeReal bits then leastInteger else greatestInteger
  | some (m, e) =>
      let n := if e < 0 then Int.tdiv m (Nat.pow 2 (-e).toNat) else m * Nat.pow 2 e.toNat
      max leastInteger (min greatestInteger n)

def compareExact (m e n : Int) : Ordering :=
  if e < 0 then compare m (n * Nat.pow 2 (-e).toNat) else compare (m * Nat.pow 2 e.toNat) n

def compareIntReal (n : Int) (bits : UInt64) : Ordering :=
  match dyadic? bits with
  | none => if isNegativeReal bits then .gt else .lt
  | some (m, e) => (compareExact m e n).swap

def compareReals (a b : UInt64) : Ordering :=
  let x := Float.ofBits a
  let y := Float.ofBits b
  if x < y then .lt else if y < x then .gt else .eq

def Value.rank : Value → Nat
  | .null => 0
  | .integer _ => 1
  | .real _ => 1
  | .text _ => 2
  | .blob _ => 3

/-- The order of values: nothing, then numbers, then texts, then blobs. -/
def Value.compare (collation : Collation) : Value → Value → Ordering
  | .integer a, .integer b => Ord.compare a b
  | .integer a, .real b => compareIntReal a b
  | .real a, .integer b => (compareIntReal b a).swap
  | .real a, .real b => compareReals a b
  | .text a, .text b => collation.compare a b
  | .blob a, .blob b => compareBytes a b
  | a, b => Ord.compare a.rank b.rank

structure Numeral where
  negative : Bool
  digits : Nat
  exponent : Int
  whole : Bool
  deriving DecidableEq

def isBlankByte (b : UInt8) : Bool :=
  b == 32 || (9 ≤ b && b ≤ 13)

def isDigitByte (b : UInt8) : Bool :=
  48 ≤ b && b ≤ 57

def digitsOf (ds : Bytes) : Nat :=
  ds.foldl (fun n d => 10 * n + (d.toNat - 48)) 0

def exponent? (bytes : Bytes) : Option (Int × Bytes) :=
  match bytes with
  | e :: rest =>
      if lowerByte e = 101 then
        let (negative, rest) := match rest with
          | 43 :: rest => (false, rest)
          | 45 :: rest => (true, rest)
          | rest => (false, rest)
        let ds := rest.takeWhile isDigitByte
        if ds.isEmpty then none
        else
          let n : Int := min (digitsOf (ds.dropWhile (· == 48) |>.take 6)) 99999
          some (if negative then -n else n, rest.dropWhile isDigitByte)
      else none
  | [] => none

def Numeral.scan? (bytes : Bytes) : Option (Numeral × Bytes) :=
  let rest := bytes.dropWhile isBlankByte
  let (negative, rest) := match rest with
    | 43 :: rest => (false, rest)
    | 45 :: rest => (true, rest)
    | rest => (false, rest)
  let front := rest.takeWhile isDigitByte
  let rest := rest.dropWhile isDigitByte
  let (hasPoint, back, rest) := match rest with
    | 46 :: rest => (true, rest.takeWhile isDigitByte, rest.dropWhile isDigitByte)
    | rest => (false, [], rest)
  if front.isEmpty && back.isEmpty then none
  else
    let digits := digitsOf (front ++ back)
    match exponent? rest with
    | some (e, rest) => some (⟨negative, digits, e - back.length, false⟩, rest)
    | none => some (⟨negative, digits, -back.length, !hasPoint⟩, rest)

def Numeral.read? (bytes : Bytes) : Option Numeral :=
  match Numeral.scan? bytes with
  | some (n, rest) => if rest.all isBlankByte then some n else none
  | none => none

/-- The number as a real one; exponents beyond its range give zero or infinity. -/
def Numeral.real (n : Numeral) : UInt64 :=
  let digitCount : Int := (Nat.toDigits 10 n.digits).length
  let x : Float :=
    if n.digits = 0 ∨ n.exponent + digitCount < -400 then 0
    else if 400 < n.exponent + digitCount then 1 / 0
    else Float.ofScientific n.digits (n.exponent < 0) n.exponent.natAbs
  (if n.negative then -x else x).toBits

/-- A whole number if it is spelled as one and fits, else a real number. -/
def Numeral.value (n : Numeral) : Value :=
  let i : Int := if n.negative then -n.digits else n.digits
  if n.whole && fitsInteger i then .integer i else .real n.real

def wholeOfReal (bits : UInt64) : Value :=
  let i := truncateReal bits
  let isWhole := compareIntReal i bits = .eq ∧ leastInteger < i ∧ i < greatestInteger
  if isWhole then .integer i else .real bits

/-- The first `n` digits of a positive number `m * 2 ^ e`, halves rounded up, and the power of ten
of the first digit. -/
def leadingDigits (n : Nat) (m : Nat) (e : Int) : Nat × Int :=
  let guess : Int := ((m.log2 : Int) + e) * 30103 / 100000
  let scaled (k : Int) : Nat :=
    -- twice the number over 10 ^ (k - n + 1), plus one, halved
    let shift := k - n + 1
    let num := 2 * m * Nat.pow 2 e.toNat * Nat.pow 10 (-shift).toNat
    let den := Nat.pow 2 (-e).toNat * Nat.pow 10 shift.toNat
    (num + den) / (2 * den)
  let isBelow (k : Int) : Bool :=
    -- whether the number is less than 10 ^ k
    m * Nat.pow 2 e.toNat * Nat.pow 10 (-k).toNat < Nat.pow 2 (-e).toNat * Nat.pow 10 k.toNat
  let k := if isBelow guess then guess - 1 else if isBelow (guess + 1) then guess else guess + 1
  let d := scaled k
  if Nat.pow 10 n ≤ d then (d / 10, k + 1) else (d, k)

def trimZeros (ds : List Char) : List Char :=
  match (ds.reverse.dropWhile (· == '0')).reverse with
  | [] => ['0']
  | ds => ds

/-- The text of a real number: fifteen digits at most, always with a point, and with an exponent for
very small and very large numbers. -/
def realText (bits : UInt64) : String :=
  match dyadic? bits with
  | none => if isNegativeReal bits then "-Inf" else "Inf"
  | some (m, e) =>
      if m = 0 then "0.0"
      else
        let (d, k) := leadingDigits 15 m.natAbs e
        let ds := Nat.toDigits 10 d
        let sign := if m < 0 then "-" else ""
        let text : List Char :=
          if k < -4 ∨ 14 < k then
            let ds := trimZeros ds
            let fraction := if ds.tail.isEmpty then ['0'] else ds.tail
            let power := (Text.natText k.natAbs).toList
            ds.take 1 ++ ['.'] ++ fraction ++ ['e', if k < 0 then '-' else '+'] ++
              (if power.length < 2 then '0' :: power else power)
          else if k < 0 then
            ['0', '.'] ++ List.replicate (-k - 1).toNat '0' ++ trimZeros ds
          else
            let front := ds.take (k.toNat + 1)
            front ++ ['.'] ++ trimZeros (ds.drop (k.toNat + 1))
        sign ++ String.ofList text

def Value.textBytes : Value → Bytes
  | .null => []
  | .integer n => bytesOf (Text.intText n)
  | .real bits => bytesOf (realText bits)
  | .text bytes => bytes
  | .blob bytes => bytes

/-- The number that a value counts as in arithmetic: of a text, the number at its front. -/
def Value.number : Value → Value
  | .null => .null
  | .integer n => .integer n
  | .real bits => .real bits
  | .text bytes | .blob bytes =>
      match Numeral.scan? bytes with
      | some (n, _) => n.value
      | none => .integer 0

def numberOfText (bytes : Bytes) : Value :=
  match Numeral.read? bytes with
  | none => .text bytes
  | some n =>
      match n.value with
      | .real bits => wholeOfReal bits
      | v => v

def Affinity.apply : Affinity → Value → Value
  | .none, v => v
  | .text, .integer n => .text (bytesOf (Text.intText n))
  | .text, .real bits => .text (bytesOf (realText bits))
  | .text, v => v
  | .real, .integer n => .real (realOfInt n)
  | .real, .text bytes =>
      match numberOfText bytes with
      | .integer n => .real (realOfInt n)
      | v => v
  | .real, v => v
  | _, .text bytes => numberOfText bytes
  | _, .real bits => wholeOfReal bits
  | _, v => v

def Value.truth? (v : Value) : Option Bool :=
  match v.number with
  | .null => none
  | .integer n => some (n != 0)
  | .real bits => some (compareIntReal 0 bits != .eq)
  | _ => some false

end Predication.Sql
