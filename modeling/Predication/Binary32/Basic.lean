namespace Predication

structure Binary32 where
  bits : UInt32
  deriving DecidableEq, Repr

namespace Binary32

def negative (x : Binary32) : Bool :=
  0x80000000 ≤ x.bits.toNat

/-- The bits below the sign; on them the order of magnitudes is the order of numbers. -/
def magnitude (x : Binary32) : Nat :=
  x.bits.toNat % 0x80000000

def infinityMagnitude : Nat := 255 * 0x800000

def ofMagnitude (neg : Bool) (m : Nat) : Binary32 :=
  ⟨UInt32.ofNat (if neg then 0x80000000 + m else m)⟩

def nan : Binary32 := ofMagnitude false (infinityMagnitude + 0x400000)

def infinity (neg : Bool) : Binary32 := ofMagnitude neg infinityMagnitude

def isNaN (x : Binary32) : Bool :=
  infinityMagnitude < x.magnitude

def isInfinite (x : Binary32) : Bool :=
  x.magnitude == infinityMagnitude

def isZero (x : Binary32) : Bool :=
  x.magnitude == 0

/-- How many units of 2⁻¹⁴⁹ a magnitude stands for. -/
def units (m : Nat) : Nat :=
  let e := m / 0x800000
  let f := m % 0x800000
  if e = 0 then f else (0x800000 + f) * Nat.pow 2 (e - 1)

/-- Equality of numbers: the two zeros are equal and a NaN equals nothing. -/
def numEq (x y : Binary32) : Bool :=
  !x.isNaN && !y.isNaN && (x.bits == y.bits || (x.isZero && y.isZero))

end Binary32

end Predication
