import Predication.Binary32.Rounding
import Predication.Text.Decimal

namespace Predication.Binary32

open Text

/-- A decimal numeral without its sign: its value is `digits · 10^exponent`. -/
structure Numeral where
  digits : Nat
  exponent : Int
  deriving DecidableEq, Repr

def readExponent? : List Char → Option Int
  | [] => some 0
  | c :: cs => if c = 'e' ∨ c = 'E' then readInt? cs else none

def Numeral.read? (cs : List Char) : Option Numeral :=
  let whole := cs.takeWhile isDigit
  let rest := cs.dropWhile isDigit
  let (fraction, rest) :=
    match rest with
    | '.' :: after => (after.takeWhile isDigit, after.dropWhile isDigit)
    | _ => ([], rest)
  if whole.isEmpty && fraction.isEmpty then none
  else (readExponent? rest).map fun e => ⟨digitsValue (whole ++ fraction), e - fraction.length⟩

def lowerAscii (cs : List Char) : List Char :=
  cs.map Char.toLower

/-- The magnitude that a text without sign stands for; `none` in the result is a NaN. -/
def readUnsigned? (cs : List Char) : Option (Option Nat) :=
  let name := lowerAscii cs
  if name = "inf".toList ∨ name = "infinity".toList then some (some infinityMagnitude)
  else if name = "nan".toList then some none
  else (Numeral.read? cs).map fun n => some (nearestDecimal n.digits n.exponent)

def signed (neg : Bool) : Option Nat → Binary32
  | none => nan
  | some m => ofMagnitude neg m

def read? (cs : List Char) : Option Binary32 :=
  match cs with
  | '+' :: rest => (readUnsigned? rest).map (signed false)
  | '-' :: rest => (readUnsigned? rest).map (signed true)
  | _ => (readUnsigned? cs).map (signed false)

end Predication.Binary32
