import Predication.Json.Reader
import Predication.Text.Decimal

namespace Predication.Toml

open Text (isDigit digitValue digitsValue)

def isScalarChar (c : Char) : Bool :=
  isDigit c || ('a' ≤ c && c ≤ 'z') || ('A' ≤ c && c ≤ 'Z') || c == '+' || c == '-' || c == '_' ||
    c == '.' || c == ':'

def dropSign : List Char → List Char
  | '+' :: rest => rest
  | '-' :: rest => rest
  | cs => cs

def isDigitRun (digit : Char → Bool) : List Char → Bool
  | [] => false
  | [c] => digit c
  | c :: '_' :: rest => digit c && isDigitRun digit rest
  | c :: rest => digit c && isDigitRun digit rest

def isWhole (cs : List Char) : Bool :=
  cs == ['0'] || (isDigitRun isDigit cs && cs.head? != some '0')

def withoutUnderscores (cs : List Char) : List Char :=
  cs.filter (· != '_')

def isDecimalInteger (cs : List Char) : Bool :=
  let ds := dropSign cs
  let n := digitsValue (withoutUnderscores ds)
  isWhole ds && (n < 0x8000000000000000 || (n == 0x8000000000000000 && cs.head? == some '-'))

def baseValue (base : Nat) (ds : List Char) : Nat :=
  ds.foldl (fun n d => base * n + (Json.hexValue? d).getD 0) 0

def isBaseInteger (base : Nat) (ds : List Char) : Bool :=
  isDigitRun (fun c => match Json.hexValue? c with | some v => v < base | none => false) ds &&
    baseValue base (withoutUnderscores ds) < 0x8000000000000000

def isInteger : List Char → Bool
  | '0' :: 'x' :: ds => isBaseInteger 16 ds
  | '0' :: 'o' :: ds => isBaseInteger 8 ds
  | '0' :: 'b' :: ds => isBaseInteger 2 ds
  | cs => isDecimalInteger cs

/-- Whether `c · 10^e` rounds to infinity in 64 bits, that is, reaches the midpoint between the
largest finite number and the next power of two. -/
def overflows64 (c : Nat) (e : Int) : Bool :=
  let top : Int := (Nat.toDigits 10 c).length + e
  if c = 0 || top < 300 then false
  else if 320 < top then true
  else if 0 ≤ e then Nat.pow 2 1024 - Nat.pow 2 970 ≤ c * Nat.pow 10 e.toNat
  else (Nat.pow 2 1024 - Nat.pow 2 970) * Nat.pow 10 (-e).toNat ≤ c

def isDecimalFloat (cs : List Char) : Bool :=
  let unsigned := dropSign cs
  let (mantissa, exponent) := unsigned.span (fun c => c != 'e' && c != 'E')
  let (whole, fraction) := mantissa.span (· != '.')
  let hasForm :=
    isWhole whole && (fraction.isEmpty || isDigitRun isDigit fraction.tail) &&
      (exponent.isEmpty || isDigitRun isDigit (dropSign exponent.tail)) &&
      !(fraction.isEmpty && exponent.isEmpty)
  let places := withoutUnderscores fraction.tail
  let shown := digitsValue (withoutUnderscores (dropSign exponent.tail))
  let power : Int := if exponent.tail.head? = some '-' then -(shown : Int) else shown
  let digits := digitsValue (withoutUnderscores whole ++ places)
  hasForm && (cs.head? == some '-' || !overflows64 digits (power - places.length))

def isSpecialFloat (cs : List Char) : Bool :=
  let name := dropSign cs
  name == "inf".toList || name == "nan".toList

def isTruth (cs : List Char) : Bool :=
  cs == "true".toList || cs == "false".toList

def twoDigits? (low high : Nat) : List Char → Option (Nat × List Char)
  | a :: b :: rest =>
      let n := digitsValue [a, b]
      if isDigit a && isDigit b && low ≤ n && n ≤ high then some (n, rest) else none
  | _ => none

def isLeapYear (y : Nat) : Bool :=
  y % 4 == 0 && (y % 100 != 0 || y % 400 == 0)

def daysInMonth (year month : Nat) : Nat :=
  if month = 2 then if isLeapYear year then 29 else 28
  else if month = 4 ∨ month = 6 ∨ month = 9 ∨ month = 11 then 30
  else 31

def date? : List Char → Option (List Char)
  | a :: b :: c :: d :: '-' :: rest =>
      if [a, b, c, d].all isDigit then
        match twoDigits? 1 12 rest with
        | some (month, '-' :: rest) =>
            (twoDigits? 1 (daysInMonth (digitsValue [a, b, c, d]) month) rest).map Prod.snd
        | _ => none
      else none
  | _ => none

/-- What follows a time of day. A leap second is allowed. -/
def time? (cs : List Char) : Option (List Char) :=
  match twoDigits? 0 23 cs with
  | some (_, ':' :: cs) =>
      match twoDigits? 0 59 cs with
      | some (_, ':' :: cs) =>
          match twoDigits? 0 60 cs with
          | some (_, '.' :: cs) =>
              if (cs.head?.map isDigit).getD false then some (cs.dropWhile isDigit) else none
          | some (_, cs) => some cs
          | none => none
      | _ => none
  | _ => none

def isOffset : List Char → Bool
  | ['Z'] => true
  | ['z'] => true
  | sign :: cs =>
      (sign == '+' || sign == '-') &&
        (match twoDigits? 0 23 cs with
          | some (_, ':' :: cs) => (twoDigits? 0 59 cs).map Prod.snd == some []
          | _ => false)
  | [] => false

def isOffsetTime (cs : List Char) : Bool :=
  match time? cs with
  | some rest => rest.isEmpty || isOffset rest
  | none => false

def isMoment (cs : List Char) : Bool :=
  match date? cs with
  | some [] => true
  | some (c :: rest) => (c == 'T' || c == 't') && isOffsetTime rest
  | none => time? cs == some []

def isScalar (cs : List Char) : Bool :=
  isTruth cs || isInteger cs || isDecimalFloat cs || isSpecialFloat cs || isMoment cs

/-- What follows a scalar. After a date, a space may stand for the letter T. -/
def skipScalar? (cs : List Char) : Option (List Char) :=
  let run := cs.takeWhile isScalarChar
  let rest := cs.dropWhile isScalarChar
  if isScalar run then
    match date? run, rest with
    | some [], ' ' :: after =>
        let time := after.takeWhile isScalarChar
        if isOffsetTime time then some (after.dropWhile isScalarChar) else some rest
    | _, _ => some rest
  else none

end Predication.Toml
