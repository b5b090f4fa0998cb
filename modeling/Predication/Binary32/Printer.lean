import Predication.Binary32.Shortest
import Predication.Text.Decimal

namespace Predication.Binary32

open Text

/-- How a finite number is laid out: whether a whole number keeps a final `.0`, and which powers
of ten of the leading digit are written out in full; the others get an exponent. -/
structure Layout where
  pointOnWhole : Bool
  inFull : Int → Bool

def Layout.plain : Layout := ⟨false, fun _ => true⟩

/-- Diagnostic text: a point in every number written in full, an exponent from 10¹⁶ up and
below 10⁻⁴. -/
def Layout.diagnostic : Layout := ⟨true, fun k => -4 ≤ k && k < 16⟩

def zeros (n : Nat) : List Char := List.replicate n '0'

def positional (pointOnWhole : Bool) (ds : List Char) (e : Int) : List Char :=
  if 0 ≤ e then
    ds ++ zeros e.toNat ++ (if pointOnWhole then ['.', '0'] else [])
  else
    let places := (-e).toNat
    if places < ds.length then
      ds.take (ds.length - places) ++ '.' :: ds.drop (ds.length - places)
    else
      '0' :: '.' :: zeros (places - ds.length) ++ ds

def scientific (ds : List Char) (e : Int) : List Char :=
  let k : Int := ds.length - 1 + e
  match ds with
  | [] => []
  | [d] => d :: 'e' :: (intText k).toList
  | d :: rest => d :: '.' :: rest ++ 'e' :: (intText k).toList

/-- The decimal's digits without final zeros, and the power of ten of the last one. -/
def Decimal.trimmed (d : Decimal) : List Char × Int :=
  let ds := Nat.toDigits 10 d.digits
  let kept := (ds.reverse.dropWhile (· == '0')).reverse
  (kept, d.exponent + (ds.length - kept.length : Nat))

def finiteText (layout : Layout) (m : Nat) : List Char :=
  if m = 0 then positional layout.pointOnWhole ['0'] 0
  else
    let (ds, e) := (shortest m).trimmed
    if layout.inFull (ds.length - 1 + e) then positional layout.pointOnWhole ds e
    else scientific ds e

def text (layout : Layout) (x : Binary32) : List Char :=
  if x.isNaN then "NaN".toList
  else
    let magnitude := if x.isInfinite then "inf".toList else finiteText layout x.magnitude
    if x.negative then '-' :: magnitude else magnitude

end Predication.Binary32
