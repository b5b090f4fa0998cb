import Predication.Proofs.Binary32.Decimal

namespace Predication.Binary32

theorem Within.convex {x y z : ℚ} {m : Nat} (hx : Within x m) (hz : Within z m) (hxy : x ≤ y)
    (hyz : y ≤ z) : Within y m where
  below := by
    have hbelow := hx.below
    linarith
  above := by
    have habove := hz.above
    linarith
  tie := by
    have hbelow := hx.below
    have habove := hz.above
    rintro (h | h)
    · exact hx.tie (.inl (by linarith))
    · exact hz.tie (.inr (by linarith))

def floorPoint (m : Nat) (e : Int) : Nat :=
  2 * units m * (gridStep e).2 / (gridStep e).1

theorem floorPoint_bounds (m : Nat) (e : Int) :
    (floorPoint m e : ℚ) * 10 ^ e ≤ value m ∧
      value m < ((floorPoint m e + 1 : Nat) : ℚ) * 10 ^ e := by
  obtain ⟨s, hs, hd, hstep⟩ := gridStep_spec e
  have hten : (0 : ℚ) < 10 ^ e := by positivity
  have hd' : (0 : ℚ) < (gridStep e).2 := by exact_mod_cast hd
  have hs' : (0 : ℚ) < s := by
    by_contra hneg
    obtain rfl : s = 0 := by
      have hzero : (s : ℚ) ≤ 0 := not_lt.mp hneg
      exact_mod_cast le_antisymm hzero (Nat.cast_nonneg s)
    simp only [Nat.cast_zero, zero_div] at hstep
    exact hten.ne' hstep
  have hvalue : value m = (units m * (gridStep e).2 / s : ℚ) * 10 ^ e := by
    rw [hstep, value]
    field_simp
  have hfloor : floorPoint m e = units m * (gridStep e).2 / s := by
    rw [floorPoint, hs, Nat.mul_assoc]
    exact Nat.mul_div_mul_left _ _ (by decide)
  have hspos : 0 < s := by exact_mod_cast hs'
  rw [hvalue, hfloor]
  constructor
  · gcongr
    rw [le_div_iff₀ hs']
    exact_mod_cast Nat.div_mul_le_self _ s
  · gcongr
    rw [div_lt_iff₀ hs']
    exact_mod_cast Nat.lt_mul_of_div_lt (Nat.lt_succ_self _) hspos

section

variable {m c : Nat} {e : Int}

/-- The two grid points around a number are tried, the nearer one first. -/
theorem gridPoint?_eq (m : Nat) (e : Int) : ∃ nearer farther,
    (nearer = floorPoint m e ∧ farther = floorPoint m e + 1 ∨
      nearer = floorPoint m e + 1 ∧ farther = floorPoint m e) ∧
    gridPoint? m e =
      if 0 < nearer && readsBack m e nearer then some nearer
      else if 0 < farther && readsBack m e farther then some farther
      else none := by
  unfold gridPoint?
  dsimp only
  rw [← floorPoint]
  split
  · exact ⟨_, _, .inl ⟨rfl, rfl⟩, rfl⟩
  · exact ⟨_, _, .inr ⟨rfl, rfl⟩, rfl⟩

theorem within_of_gridPoint? (h : gridPoint? m e = some c) : 0 < c ∧ Within (c * 10 ^ e) m := by
  obtain ⟨nearer, farther, -, heq⟩ := gridPoint?_eq m e
  rw [heq] at h
  split at h
  · next hnear =>
    cases h
    simpa [readsBack_iff] using hnear
  · split at h
    · next hfar =>
      cases h
      simpa [readsBack_iff] using hfar
    · cases h

theorem isSome_gridPoint? (hc : c = floorPoint m e ∨ c = floorPoint m e + 1) (hpos : 0 < c)
    (h : Within (c * 10 ^ e) m) : (gridPoint? m e).isSome := by
  obtain ⟨nearer, farther, hcases, heq⟩ := gridPoint?_eq m e
  have hback : (0 < c && readsBack m e c) = true := by
    simpa [readsBack_iff] using ⟨hpos, h⟩
  have hone : c = nearer ∨ c = farther := by omega
  rw [heq]
  split
  · rfl
  · next hnear =>
    obtain rfl := hone.resolve_left (fun hn => hnear (hn ▸ hback))
    rw [if_pos hback]
    rfl

theorem isSome_gridPoint?_of_within (hpos : 0 < c) (h : Within (c * 10 ^ e) m) :
    (gridPoint? m e).isSome := by
  obtain ⟨hfloor, hceiling⟩ := floorPoint_bounds m e
  have hten : (0 : ℚ) < 10 ^ e := by positivity
  have hself := within_value m
  rcases le_or_gt ((c : ℚ) * 10 ^ e) (value m) with hle | hgt
  · have hc : c ≤ floorPoint m e := by
      have hlt : (c : ℚ) < ((floorPoint m e + 1 : Nat) : ℚ) :=
        lt_of_mul_lt_mul_right (hle.trans_lt hceiling) hten.le
      exact Nat.lt_succ_iff.mp (by exact_mod_cast hlt)
    have hmul : (c : ℚ) * 10 ^ e ≤ floorPoint m e * 10 ^ e := by gcongr
    exact isSome_gridPoint? (.inl rfl) (by omega) (h.convex hself hmul hfloor)
  · have hc : floorPoint m e + 1 ≤ c := by
      have hlt : (floorPoint m e : ℚ) < c :=
        lt_of_mul_lt_mul_right (hfloor.trans_lt hgt) hten.le
      exact_mod_cast hlt
    have hmul : ((floorPoint m e + 1 : Nat) : ℚ) * 10 ^ e ≤ c * 10 ^ e := by gcongr
    exact isSome_gridPoint? (.inr rfl) (Nat.succ_pos _) (hself.convex h hceiling.le hmul)

end

section

variable {m : Nat} (hm : 0 < m)

include hm

theorem value_pred_add_le : value (m - 1) + 1 / 2 ^ 149 ≤ value m := by
  have hunits : units (m - 1) + 1 ≤ units m := units_strictMono (by omega)
  have hcast : (units (m - 1) : ℚ) + 1 ≤ units m := by exact_mod_cast hunits
  unfold value
  rw [← add_div]
  gcongr

theorem within_shortest :
    0 < (shortest m).digits ∧ Within ((shortest m).digits * 10 ^ (shortest m).exponent) m := by
  unfold shortest
  cases hfound : gridExponents.findSome? fun e => (gridPoint? m e).map fun c => Decimal.mk c e with
  | some d =>
    obtain ⟨e, -, he⟩ := List.exists_of_findSome?_eq_some hfound
    obtain ⟨c, hc, rfl⟩ := Option.map_eq_some_iff.mp he
    exact within_of_gridPoint? hc
  | none =>
    have hunits : 0 < units m := Nat.lt_of_le_of_lt (Nat.zero_le _) (units_strictMono hm)
    have hexact : ((units m * Nat.pow 5 149 : Nat) : ℚ) * 10 ^ (-149 : Int) = value m := by
      rw [value, Nat.pow_eq]
      push_cast
      norm_num
      ring
    refine ⟨Nat.mul_pos hunits (by decide), ?_⟩
    rw [Option.getD_none, hexact]
    exact within_value m

end

theorem mem_gridExponents {e : Int} : e ∈ gridExponents ↔ -50 ≤ e ∧ e ≤ 39 := by
  rw [gridExponents, List.mem_map]
  constructor
  · rintro ⟨i, hi, rfl⟩
    have hlt := List.mem_range.mp hi
    omega
  · rintro ⟨hlow, hhigh⟩
    exact ⟨(39 - e).toNat, List.mem_range.mpr (by omega), by omega⟩

theorem gridExponents_descending : gridExponents.Pairwise fun a b => b < a := by
  rw [gridExponents, List.pairwise_map]
  exact List.pairwise_lt_range.imp fun h => by omega

theorem le_exponent_of_isSome {m : Nat} {e : Int} (he : e ∈ gridExponents)
    (h : (gridPoint? m e).isSome) : e ≤ (shortest m).exponent := by
  unfold shortest
  cases hfound : gridExponents.findSome? fun e => (gridPoint? m e).map fun c => Decimal.mk c e with
  | none =>
    have hnone := List.findSome?_eq_none_iff.mp hfound e he
    rw [Option.map_eq_none_iff] at hnone
    rw [hnone] at h
    cases h
  | some d =>
    obtain ⟨before, a, after, hlist, ha, hbefore⟩ := List.findSome?_eq_some_iff.mp hfound
    obtain ⟨c, -, rfl⟩ := Option.map_eq_some_iff.mp ha
    rw [Option.getD_some]
    have hdescending := gridExponents_descending
    rw [hlist] at he hdescending
    rcases List.mem_append.mp he with hfirst | hlater
    · have hnone := hbefore e hfirst
      rw [Option.map_eq_none_iff] at hnone
      rw [hnone] at h
      cases h
    · rcases List.mem_cons.mp hlater with rfl | hlater
      · exact le_rfl
      · have hrest := (List.pairwise_append.mp hdescending).2.1
        exact ((List.pairwise_cons.mp hrest).1 e hlater).le

theorem isSome_finest {m : Nat} (hm : 0 < m) : (gridPoint? m (-50)).isSome := by
  obtain ⟨hfloor, hceiling⟩ := floorPoint_bounds m (-50)
  have hgap := value_pred_add_le hm
  have hnext : value m < value (m + 1) := value_strictMono (Nat.lt_succ_self m)
  have hprev := value_nonneg (m - 1)
  have hpositive : 0 < (10 : ℚ) ^ (-50 : Int) := by positivity
  have hstep : 2 * (10 : ℚ) ^ (-50 : Int) < 1 / 2 ^ 149 := by norm_num
  rw [Nat.cast_add, Nat.cast_one, add_mul, one_mul] at hceiling
  have hpos : 0 < floorPoint m (-50) := by
    by_contra hzero
    have hzero : floorPoint m (-50) = 0 := by omega
    rw [hzero, Nat.cast_zero, zero_mul, zero_add] at hceiling
    generalize (10 : ℚ) ^ (-50 : Int) = step at *
    linarith
  refine isSome_gridPoint? (.inl rfl) hpos ?_
  generalize (10 : ℚ) ^ (-50 : Int) = step at *
  refine ⟨by linarith, by linarith, ?_⟩
  rintro (h | h) <;> linarith

section

variable {m c : Nat} {e : Int} (hm : 0 < m) (hfinite : m < infinityMagnitude) (hc : 0 < c)
  (h : Within (c * 10 ^ e) m)

include hm hfinite hc h

theorem le_exponent_shortest : e ≤ (shortest m).exponent := by
  have hhigh : e ≤ 39 := by
    by_contra hlarge
    have hself : value m < value infinityMagnitude := value_strictMono hfinite
    have hnext : value (m + 1) ≤ value infinityMagnitude := value_strictMono.monotone hfinite
    have habove := h.above
    have hone : (1 : ℚ) ≤ c := by exact_mod_cast hc
    have hlower : (10 : ℚ) ^ (40 : Int) ≤ c * 10 ^ e := by
      calc (10 : ℚ) ^ (40 : Int) ≤ 10 ^ e := zpow_le_zpow_right₀ (by norm_num) (by omega)
        _ = 1 * 10 ^ e := (one_mul _).symm
        _ ≤ c * 10 ^ e := by gcongr
    rw [value_infinity] at hself hnext
    norm_num at hlower hself hnext
    linarith
  rcases lt_or_ge e (-50) with hlow | hlow
  · have hfinest := le_exponent_of_isSome (mem_gridExponents.mpr (by omega)) (isSome_finest hm)
    omega
  · exact le_exponent_of_isSome (mem_gridExponents.mpr ⟨hlow, hhigh⟩)
      (isSome_gridPoint?_of_within hc h)

/-- No decimal that is read as a number has fewer digits than the shortest one: between two that
differ in length lies a power of ten, which would be shorter than both. -/
theorem length_shortest_le :
    (Nat.toDigits 10 (shortest m).digits).length ≤ (Nat.toDigits 10 c).length := by
  obtain ⟨hpos, hshortest⟩ := within_shortest hm
  have hexp := le_exponent_shortest hm hfinite hc h
  by_contra hlonger
  obtain ⟨-, hupper⟩ := decimal_bounds hc e
  obtain ⟨hlower, -⟩ := decimal_bounds hpos (shortest m).exponent
  have hlen : 0 < (Nat.toDigits 10 c).length := Nat.length_toDigits_pos
  generalize (Nat.toDigits 10 c).length = l at *
  have hlow : (c : ℚ) * 10 ^ e ≤ 10 ^ (l + (shortest m).exponent) :=
    hupper.le.trans (zpow_le_zpow_right₀ (by norm_num) (by omega))
  have hhigh : (10 : ℚ) ^ (l + (shortest m).exponent) ≤
      (shortest m).digits * 10 ^ (shortest m).exponent :=
    (zpow_le_zpow_right₀ (by norm_num) (by omega)).trans hlower
  have hpower : Within (((1 : Nat) : ℚ) * 10 ^ (l + (shortest m).exponent)) m := by
    rw [Nat.cast_one, one_mul]
    exact h.convex hshortest hlow hhigh
  have hcoarser := le_exponent_shortest hm hfinite Nat.one_pos hpower
  omega

end

theorem nearestDecimal_shortest {m : Nat} (hm : 0 < m) (hfinite : m < infinityMagnitude) :
    nearestDecimal (shortest m).digits (shortest m).exponent = m ∧
      ∀ c e, 0 < c → nearestDecimal c e = m →
        (Nat.toDigits 10 (shortest m).digits).length ≤ (Nat.toDigits 10 c).length := by
  refine ⟨(nearestDecimal_eq_iff hfinite).mpr (within_shortest hm).2, ?_⟩
  intro c e hc hread
  exact length_shortest_le hm hfinite hc ((nearestDecimal_eq_iff hfinite).mp hread)

end Predication.Binary32
