import Mathlib
import Predication.Binary32.Rounding
import Predication.Binary32.Shortest

namespace Predication.Binary32

theorem units_scaled {k r : Nat} (hr : r ≤ 0x1000000) (hk : k = 0 ∨ 0x800000 ≤ r) :
    units (k * 0x800000 + r) = r * 2 ^ k := by
  have hunits (e f : Nat) (hf : f < 0x800000) :
      units (e * 0x800000 + f) = if e = 0 then f else (0x800000 + f) * 2 ^ (e - 1) := by
    have hdiv : (e * 0x800000 + f) / 0x800000 = e := by omega
    have hmod : (e * 0x800000 + f) % 0x800000 = f := by omega
    simp only [units, hdiv, hmod, Nat.pow_eq]
  rcases Nat.lt_or_ge r 0x800000 with hlow | hhigh
  · obtain rfl : k = 0 := by omega
    rw [hunits 0 r hlow, if_pos rfl, pow_zero, Nat.mul_one]
  · rcases Nat.lt_or_ge r 0x1000000 with hnormal | htop
    · have hm : k * 0x800000 + r = (k + 1) * 0x800000 + (r - 0x800000) := by omega
      rw [hm, hunits (k + 1) (r - 0x800000) (by omega), if_neg (by omega), Nat.add_sub_cancel,
        Nat.add_sub_cancel' hhigh]
    · obtain rfl : r = 0x1000000 := by omega
      have hm : k * 0x800000 + 0x1000000 = (k + 2) * 0x800000 + 0 := by omega
      have hpow : 2 ^ (k + 2 - 1) = 2 * 2 ^ k := Nat.pow_succ'
      rw [hm, hunits (k + 2) 0 (by omega), if_neg (by omega), hpow]
      omega

theorem exists_scaled (m : Nat) :
    ∃ k r, m = k * 0x800000 + r ∧ r < 0x1000000 ∧ (k = 0 ∨ 0x800000 ≤ r) := by
  refine ⟨m / 0x800000 - 1, m - (m / 0x800000 - 1) * 0x800000, ?_, ?_, ?_⟩ <;> omega

theorem units_lt_succ (m : Nat) : units m < units (m + 1) := by
  obtain ⟨k, r, rfl, hr, hk⟩ := exists_scaled m
  rw [units_scaled (by omega) hk, Nat.add_assoc, units_scaled (by omega) (by omega)]
  exact Nat.mul_lt_mul_of_pos_right (Nat.lt_succ_self r) (by positivity)

theorem units_strictMono : StrictMono units :=
  strictMono_nat_of_lt_succ units_lt_succ

/-- The number that a magnitude stands for; that of infinity is the one that would come next. -/
def value (m : Nat) : ℚ :=
  units m / 2 ^ 149

theorem value_strictMono : StrictMono value := by
  intro m n h
  have hunits : (units m : ℚ) < units n := by exact_mod_cast units_strictMono h
  unfold value
  gcongr

/-- No magnitude is nearer to a number, and an equally near one is allowed beside an even one
only. -/
def IsNearest (x : ℚ) (m : Nat) : Prop :=
  ∀ n, n ≠ m → |x - value m| < |x - value n| ∨ |x - value m| = |x - value n| ∧ m % 2 = 0

/-- A number lies between the midpoints to the neighbours of a magnitude. -/
structure Within (x : ℚ) (m : Nat) : Prop where
  below : value (m - 1) + value m ≤ 2 * x
  above : 2 * x ≤ value m + value (m + 1)
  tie : value (m - 1) + value m = 2 * x ∨ 2 * x = value m + value (m + 1) → m % 2 = 0

theorem isNearest_of_within {x : ℚ} {m : Nat} (h : Within x m) : IsNearest x m := by
  intro n hn
  have habove := h.above
  have hbelow := h.below
  rcases Nat.lt_or_gt_of_ne hn with hlt | hgt
  · have hprev : value n ≤ value (m - 1) := value_strictMono.monotone (by omega)
    have hstep : value n < value m := value_strictMono hlt
    have hfar : |x - value n| = x - value n := abs_of_nonneg (by linarith)
    rw [hfar]
    rcases le_total (value m) x with hm | hm
    · rw [abs_of_nonneg (by linarith)]
      exact .inl (by linarith)
    · rw [abs_of_nonpos (by linarith)]
      rcases lt_or_eq_of_le (show -(x - value m) ≤ x - value n by linarith) with hless | heq
      · exact .inl hless
      · exact .inr ⟨heq, h.tie (.inl (by linarith))⟩
  · have hnext : value (m + 1) ≤ value n := value_strictMono.monotone (by omega)
    have hstep : value m < value n := value_strictMono hgt
    have hfar : |x - value n| = -(x - value n) := abs_of_nonpos (by linarith)
    rw [hfar]
    rcases le_total (value m) x with hm | hm
    · rw [abs_of_nonneg (by linarith)]
      rcases lt_or_eq_of_le (show x - value m ≤ -(x - value n) by linarith) with hless | heq
      · exact .inl hless
      · exact .inr ⟨heq, h.tie (.inr (by linarith))⟩
    · rw [abs_of_nonpos (by linarith)]
      exact .inl (by linarith)

theorem not_within_of_lt {x : ℚ} {m n : Nat} (hmn : m < n) (hm : Within x m) (hn : Within x n) :
    False := by
  have hlow : value m ≤ value (n - 1) := value_strictMono.monotone (by omega)
  have hhigh : value (m + 1) ≤ value n := value_strictMono.monotone hmn
  have habove := hm.above
  have hbelow := hn.below
  have hnext : m + 1 = n := value_strictMono.injective (by linarith)
  have hm_even : m % 2 = 0 := hm.tie (.inr (by linarith))
  have hn_even : n % 2 = 0 := hn.tie (.inl (by linarith))
  omega

theorem Within.unique {x : ℚ} {m n : Nat} (hm : Within x m) (hn : Within x n) : m = n := by
  rcases Nat.lt_trichotomy m n with hlt | heq | hgt
  · exact (not_within_of_lt hlt hm hn).elim
  · exact heq
  · exact (not_within_of_lt hgt hn hm).elim

theorem within_value (m : Nat) : Within (value m) m where
  below := by
    have hprev : value (m - 1) ≤ value m := value_strictMono.monotone (Nat.sub_le m 1)
    linarith
  above := by
    have hnext : value m < value (m + 1) := value_strictMono (Nat.lt_succ_self m)
    linarith
  tie := by
    have hnext : value m < value (m + 1) := value_strictMono (Nat.lt_succ_self m)
    rintro (h | h)
    · have hprev : m - 1 = m := value_strictMono.injective (by linarith)
      omega
    · linarith

theorem within_iff {x : ℚ} {u d : Nat} (hd : 0 < d) (hx : x = u / d / 2 ^ 149) (m : Nat) :
    Within x m ↔
      (units (m - 1) + units m) * d ≤ 2 * u ∧ 2 * u ≤ (units m + units (m + 1)) * d ∧
      ((units (m - 1) + units m) * d = 2 * u ∨ 2 * u = (units m + units (m + 1)) * d →
        m % 2 = 0) := by
  have hd' : (0 : ℚ) < d := by exact_mod_cast hd
  have hscale : (0 : ℚ) < 2 ^ 149 * d := by positivity
  have hdouble : 2 * x * (2 ^ 149 * d) = ((2 * u : Nat) : ℚ) := by
    rw [hx]
    push_cast
    field_simp
  have hsum (a b : Nat) :
      (value a + value b) * (2 ^ 149 * d) = (((units a + units b) * d : Nat) : ℚ) := by
    unfold value
    push_cast
    field_simp
  have hbelow : value (m - 1) + value m ≤ 2 * x ↔ (units (m - 1) + units m) * d ≤ 2 * u := by
    rw [← mul_le_mul_iff_left₀ hscale, hsum, hdouble, Nat.cast_le]
  have habove : 2 * x ≤ value m + value (m + 1) ↔ 2 * u ≤ (units m + units (m + 1)) * d := by
    rw [← mul_le_mul_iff_left₀ hscale, hsum, hdouble, Nat.cast_le]
  have hbelow_eq : value (m - 1) + value m = 2 * x ↔ (units (m - 1) + units m) * d = 2 * u := by
    rw [← mul_left_inj' hscale.ne', hsum, hdouble, Nat.cast_inj]
  have habove_eq : 2 * x = value m + value (m + 1) ↔ 2 * u = (units m + units (m + 1)) * d := by
    rw [← mul_left_inj' hscale.ne', hsum, hdouble, Nat.cast_inj]
  constructor
  · intro h
    refine ⟨hbelow.mp h.below, habove.mp h.above, ?_⟩
    rw [← hbelow_eq, ← habove_eq]
    exact h.tie
  · rintro ⟨hb, ha, ht⟩
    refine ⟨hbelow.mpr hb, habove.mpr ha, ?_⟩
    rw [hbelow_eq, habove_eq]
    exact ht

theorem roundHalfEven_spec {d : Nat} (hd : 0 < d) (n : Nat) :
    2 * n ≤ 2 * (roundHalfEven n d * d) + d ∧ 2 * (roundHalfEven n d * d) ≤ 2 * n + d ∧
      (2 * n = 2 * (roundHalfEven n d * d) + d ∨ 2 * (roundHalfEven n d * d) = 2 * n + d →
        roundHalfEven n d % 2 = 0) := by
  have hn : n / d * d + n % d = n := by
    rw [Nat.mul_comm]
    exact Nat.div_add_mod n d
  have hr : n % d < d := Nat.mod_lt n hd
  unfold roundHalfEven
  dsimp only
  split
  · next h =>
    refine ⟨by omega, by omega, ?_⟩
    omega
  · next h =>
    rw [Nat.add_mul, Nat.one_mul]
    refine ⟨by omega, by omega, ?_⟩
    omega

theorem shift_bounds {d : Nat} (hd : 0 < d) (u : Nat) :
    u < 0x1000000 * (d * 2 ^ (Nat.log2 (u / d) - 23)) ∧
      (Nat.log2 (u / d) - 23 = 0 ∨ 0x800000 * (d * 2 ^ (Nat.log2 (u / d) - 23)) ≤ u) := by
  have hlt : u < (u / d + 1) * d := Nat.lt_mul_of_div_lt (Nat.lt_succ_self _) hd
  have hle : u / d * d ≤ u := Nat.div_mul_le_self u d
  have hlog : u / d < 2 ^ (Nat.log2 (u / d) + 1) := Nat.lt_log2_self
  have hself : Nat.log2 (u / d) = 0 ∨ 2 ^ Nat.log2 (u / d) ≤ u / d := by
    rcases Nat.eq_zero_or_pos (u / d) with hzero | hpos
    · left
      rw [hzero, Nat.log2_zero]
    · exact .inr (Nat.log2_self_le hpos.ne')
  generalize Nat.log2 (u / d) = l at *
  constructor
  · have hpow : 2 ^ (l + 1) ≤ 0x1000000 * 2 ^ (l - 23) := by
      rw [show 0x1000000 = 2 ^ 24 from rfl, ← Nat.pow_add]
      exact Nat.pow_le_pow_right (by decide) (by omega)
    calc u < (u / d + 1) * d := hlt
      _ ≤ 0x1000000 * 2 ^ (l - 23) * d := Nat.mul_le_mul_right d (by omega)
      _ = 0x1000000 * (d * 2 ^ (l - 23)) := by ring
  · rcases Nat.eq_zero_or_pos (l - 23) with hzero | hpos
    · exact .inl hzero
    · right
      have hpow : 0x800000 * 2 ^ (l - 23) = 2 ^ l := by
        rw [show 0x800000 = 2 ^ 23 from rfl, ← Nat.pow_add]
        congr 1
        omega
      have hfloor : 2 ^ l ≤ u / d := hself.resolve_left (by omega)
      calc 0x800000 * (d * 2 ^ (l - 23)) = 2 ^ l * d := by rw [← hpow]; ring
        _ ≤ u / d * d := Nat.mul_le_mul_right d hfloor
        _ ≤ u := hle

section

variable {u d k r : Nat}

theorem rounded_bounds (hd : 0 < d) (htop : u < 0x1000000 * (d * 2 ^ k))
    (hlow : k = 0 ∨ 0x800000 * (d * 2 ^ k) ≤ u) :
    roundHalfEven u (d * 2 ^ k) ≤ 0x1000000 ∧
      (k = 0 ∨ 0x800000 ≤ roundHalfEven u (d * 2 ^ k)) := by
  have hpos : 0 < d * 2 ^ k := by positivity
  obtain ⟨hover, hunder, -⟩ := roundHalfEven_spec hpos u
  generalize roundHalfEven u (d * 2 ^ k) = r at *
  generalize d * 2 ^ k = s at *
  constructor
  · by_contra hr
    have hmul : 0x1000001 * s ≤ r * s := Nat.mul_le_mul_right s (by omega)
    omega
  · refine hlow.imp_right fun hfloor => ?_
    by_contra hr
    have hmul : r * s ≤ 0x7fffff * s := Nat.mul_le_mul_right s (by omega)
    omega

variable (hr : r ≤ 0x1000000) (hk : k = 0 ∨ 0x800000 ≤ r)

include hr hk

theorem midpoint_above (htop : u < 0x1000000 * (d * 2 ^ k)) :
    (units (k * 0x800000 + r) + units (k * 0x800000 + r + 1)) * d =
        2 * (r * (d * 2 ^ k)) + d * 2 ^ k ∨
      2 * u < (units (k * 0x800000 + r) + units (k * 0x800000 + r + 1)) * d := by
  rcases Nat.lt_or_eq_of_le hr with hlt | rfl
  · left
    rw [units_scaled hr hk, Nat.add_assoc, units_scaled (by omega) (by omega)]
    ring
  · right
    have hnext := units_lt_succ (k * 0x800000 + 0x1000000)
    rw [units_scaled hr hk] at hnext ⊢
    calc 2 * u < 2 * (0x1000000 * (d * 2 ^ k)) := by omega
      _ = (0x1000000 * 2 ^ k + 0x1000000 * 2 ^ k) * d := by ring
      _ ≤ (0x1000000 * 2 ^ k + units (k * 0x800000 + 0x1000000 + 1)) * d :=
        Nat.mul_le_mul_right d (by omega)

theorem midpoint_below (hlow : k = 0 ∨ 0x800000 * (d * 2 ^ k) ≤ u) :
    (units (k * 0x800000 + r - 1) + units (k * 0x800000 + r)) * d + d * 2 ^ k =
        2 * (r * (d * 2 ^ k)) ∨
      r % 2 = 0 ∧ (units (k * 0x800000 + r - 1) + units (k * 0x800000 + r)) * d ≤ 2 * u := by
  by_cases hstep : 0 < r ∧ (k = 0 ∨ 0x800000 < r)
  · left
    obtain ⟨hpos, hk'⟩ := hstep
    obtain ⟨q, rfl⟩ : ∃ q, r = q + 1 := ⟨r - 1, by omega⟩
    rw [units_scaled hr hk, ← Nat.add_assoc, Nat.add_sub_cancel,
      units_scaled (by omega) (by omega)]
    ring
  · right
    rcases hk with rfl | hfloor
    · obtain rfl : r = 0 := by omega
      have hzero : units 0 = 0 := rfl
      simp [hzero]
    · obtain rfl : r = 0x800000 := by omega
      have hprev : units (k * 0x800000 + 0x800000 - 1) ≤ units (k * 0x800000 + 0x800000) :=
        units_strictMono.monotone (Nat.sub_le _ 1)
      rw [units_scaled hr (.inr hfloor)] at hprev ⊢
      refine ⟨rfl, ?_⟩
      calc (units (k * 0x800000 + 0x800000 - 1) + 0x800000 * 2 ^ k) * d
          ≤ (0x800000 * 2 ^ k + 0x800000 * 2 ^ k) * d := Nat.mul_le_mul_right d (by omega)
        _ = 2 * (0x800000 * (d * 2 ^ k)) := by ring
        _ ≤ 2 * u := by omega

end

/-- Rounding the kept bits gives a number between whose midpoints the quotient lies, also where
they overflow into the next binade and where the one below begins. -/
theorem within_rounded {x : ℚ} {u d : Nat} (hd : 0 < d) (hx : x = u / d / 2 ^ 149) :
    Within x ((Nat.log2 (u / d) - 23) * 0x800000 +
      roundHalfEven u (d * Nat.pow 2 (Nat.log2 (u / d) - 23))) := by
  rw [within_iff hd hx, Nat.pow_eq]
  obtain ⟨htop, hlow⟩ := shift_bounds hd u
  generalize Nat.log2 (u / d) - 23 = k at *
  obtain ⟨hr, hk⟩ := rounded_bounds hd htop hlow
  have hpos : 0 < d * 2 ^ k := by positivity
  obtain ⟨hover, hunder, htie⟩ := roundHalfEven_spec hpos u
  generalize roundHalfEven u (d * 2 ^ k) = r at *
  have hparity : (k * 0x800000 + r) % 2 = r % 2 := by omega
  have habove := midpoint_above hr hk htop
  have hbelow := midpoint_below hr hk hlow
  rw [hparity]
  generalize (units (k * 0x800000 + r) + units (k * 0x800000 + r + 1)) * d = above at *
  generalize (units (k * 0x800000 + r - 1) + units (k * 0x800000 + r)) * d = below at *
  generalize r * (d * 2 ^ k) = p at *
  generalize d * 2 ^ k = s at *
  refine ⟨by omega, by omega, by omega⟩

theorem nearestMagnitude_within {n d : Nat} (hd : 0 < d) :
    ∃ m, Within (n / d) m ∧ nearestMagnitude n d = min infinityMagnitude m := by
  have hx : (n : ℚ) / d = ((n * Nat.pow 2 149 : Nat) : ℚ) / d / 2 ^ 149 := by
    rw [Nat.pow_eq]
    push_cast
    field_simp
    norm_num
  exact ⟨_, within_rounded hd hx, rfl⟩

end Predication.Binary32
