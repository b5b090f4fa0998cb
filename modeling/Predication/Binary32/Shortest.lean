import Predication.Binary32.Basic

namespace Predication.Binary32

structure Decimal where
  digits : Nat
  exponent : Int
  deriving DecidableEq, Repr

/-- Numerator and denominator of `10^e` in half units, that is in multiples of 2⁻¹⁵⁰. -/
def gridStep (e : Int) : Nat × Nat :=
  if 0 ≤ e then (Nat.pow 10 e.toNat * Nat.pow 2 150, 1) else (Nat.pow 2 150, Nat.pow 10 (-e).toNat)

/-- The midpoints to the neighbours below and above, in half units. -/
def midpoints (m : Nat) : Nat × Nat :=
  (units (m - 1) + units m, units m + units (m + 1))

def readsBack (m : Nat) (e : Int) (c : Nat) : Bool :=
  let (p, q) := gridStep e
  let (lo, hi) := midpoints m
  if m % 2 = 0 then lo * q ≤ c * p && c * p ≤ hi * q
  else lo * q < c * p && c * p < hi * q

/-- The point of the grid of multiples of `10^e` that reads back as `m` and is nearest to it. -/
def gridPoint? (m : Nat) (e : Int) : Option Nat :=
  let (p, q) := gridStep e
  let v := 2 * units m * q
  let below := v / p
  let above := below + 1
  let nearer := if v - below * p < above * p - v then below else above
  let farther := if v - below * p < above * p - v then above else below
  if 0 < nearer && readsBack m e nearer then some nearer
  else if 0 < farther && readsBack m e farther then some farther
  else none

def gridExponents : List Int :=
  (List.range 90).map (fun i : Nat => 39 - (i : Int))

/-- The coarsest grid with a point that reads back gives the fewest digits. -/
def shortest (m : Nat) : Decimal :=
  (gridExponents.findSome? fun e => (gridPoint? m e).map fun c => ⟨c, e⟩).getD
    ⟨units m * Nat.pow 5 149, -149⟩

example : shortest 0x3f800000 = ⟨1, 0⟩ := by decide +kernel
example : shortest 1 = ⟨1, -45⟩ := by decide +kernel
example : shortest 0x3dcccccd = ⟨1, -1⟩ := by decide +kernel
example : shortest 0x7f7fffff = ⟨34028235, 31⟩ := by decide +kernel

end Predication.Binary32
