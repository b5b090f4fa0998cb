import Predication.Binary32.Basic

namespace Predication.Binary32

/-- The whole number nearest to `n / d`, the even one of two that are equally near. -/
def roundHalfEven (n d : Nat) : Nat :=
  let q := n / d
  let r := n % d
  if 2 * r < d ∨ (2 * r = d ∧ q % 2 = 0) then q else q + 1

/-- The magnitude nearest to `n / d`. Above the least binade a number keeps 24 leading bits, so
the units of the ratio are rounded to a multiple of a power of two. -/
def nearestMagnitude (n d : Nat) : Nat :=
  let u := n * Nat.pow 2 149
  let shift := Nat.log2 (u / d) - 23
  min infinityMagnitude (shift * 0x800000 + roundHalfEven u (d * Nat.pow 2 shift))

/-- The magnitude nearest to `c · 10^e`. Outside a wide range of powers of ten the answer is
infinity or zero whatever the digits are. -/
def nearestDecimal (c : Nat) (e : Int) : Nat :=
  if c = 0 then 0
  else
    let top : Int := (Nat.toDigits 10 c).length + e
    if 60 < top then infinityMagnitude
    else if top < -60 then 0
    else if 0 ≤ e then nearestMagnitude (c * Nat.pow 10 e.toNat) 1
    else nearestMagnitude c (Nat.pow 10 (-e).toNat)

example : nearestDecimal 1 0 = 0x3f800000 := by decide +kernel
example : nearestDecimal 14 (-46) = 1 := by decide +kernel
example : nearestDecimal 34028236 31 = infinityMagnitude := by decide +kernel

end Predication.Binary32
