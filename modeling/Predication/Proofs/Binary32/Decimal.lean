import Predication.Proofs.Binary32.Nearest

namespace Predication.Binary32

theorem value_zero : value 0 = 0 := by
  have hunits : units 0 = 0 := rfl
  simp [value, hunits]

theorem value_one : value 1 = 1 / 2 ^ 149 := by
  have hunits : units 1 = 1 := rfl
  simp [value, hunits]

theorem value_infinity : value infinityMagnitude = 2 ^ 128 := by
  have hunits : units infinityMagnitude = 0x800000 * 2 ^ 254 := by
    decide +kernel
  rw [value, hunits]
  norm_num

theorem value_nonneg (m : Nat) : 0 ≤ value m := by
  unfold value
  positivity

theorem infinity_le_of_within {x : ℚ} {m : Nat} (h : Within x m)
    (hx : value infinityMagnitude ≤ x) : infinityMagnitude ≤ m := by
  by_contra hm
  have hself : value m < value infinityMagnitude := value_strictMono (by omega)
  have hnext : value (m + 1) ≤ value infinityMagnitude := value_strictMono.monotone (by omega)
  have habove := h.above
  linarith

theorem eq_zero_of_within {x : ℚ} {m : Nat} (h : Within x m) (hx : 2 * x < value 1) : m = 0 := by
  by_contra hm
  have hself : value 1 ≤ value m := value_strictMono.monotone (by omega)
  have hprev := value_nonneg (m - 1)
  have hbelow := h.below
  linarith

section

variable {c : Nat} (hc : 0 < c) (e : Int)

include hc

theorem decimal_bounds :
    (10 : ℚ) ^ ((Nat.toDigits 10 c).length + e - 1) ≤ c * 10 ^ e ∧
      c * 10 ^ e < (10 : ℚ) ^ ((Nat.toDigits 10 c).length + e) := by
  have hpos : (0 : ℚ) < 10 ^ e := by positivity
  have hlen : 0 < (Nat.toDigits 10 c).length := Nat.length_toDigits_pos
  have hlt : c < 10 ^ (Nat.toDigits 10 c).length :=
    (Nat.length_toDigits_le_iff (by decide) hlen).mp le_rfl
  have hle : 10 ^ ((Nat.toDigits 10 c).length - 1) ≤ c := by
    rcases Nat.eq_zero_or_pos ((Nat.toDigits 10 c).length - 1) with hzero | hmore
    · rw [hzero]
      exact hc
    · by_contra hless
      have hfew := (Nat.length_toDigits_le_iff (by decide) hmore).mpr (Nat.lt_of_not_le hless)
      omega
  generalize (Nat.toDigits 10 c).length = l at *
  have hle' : (10 : ℚ) ^ (l - 1) ≤ c := by exact_mod_cast hle
  have hlt' : (c : ℚ) < 10 ^ l := by exact_mod_cast hlt
  constructor
  · have hexp : (l : Int) + e - 1 = ((l - 1 : Nat) : Int) + e := by omega
    rw [hexp, zpow_add₀ (by norm_num), zpow_natCast]
    gcongr
  · rw [zpow_add₀ (by norm_num), zpow_natCast]
    gcongr

end

theorem exists_quotient (c : Nat) (e : Int) :
    ∃ n d : Nat, 0 < d ∧ (c : ℚ) * 10 ^ e = n / d ∧
      nearestMagnitude n d =
        if 0 ≤ e then nearestMagnitude (c * Nat.pow 10 e.toNat) 1
        else nearestMagnitude c (Nat.pow 10 (-e).toNat) := by
  rcases le_or_gt 0 e with he | he
  · refine ⟨c * Nat.pow 10 e.toNat, 1, Nat.one_pos, ?_, by rw [if_pos he]⟩
    obtain ⟨k, rfl⟩ := Int.eq_ofNat_of_zero_le he
    simp
  · refine ⟨c, Nat.pow 10 (-e).toNat, Nat.pow_pos (by decide), ?_, by rw [if_neg (by omega)]⟩
    obtain ⟨k, hk⟩ := Int.eq_ofNat_of_zero_le (show 0 ≤ -e by omega)
    obtain rfl : e = -(k : Int) := by omega
    simp [div_eq_mul_inv]

theorem nearestDecimal_within (c : Nat) (e : Int) :
    ∃ m, Within (c * 10 ^ e) m ∧ nearestDecimal c e = min infinityMagnitude m := by
  unfold nearestDecimal
  by_cases hc : c = 0
  · refine ⟨0, ?_, by simp [hc]⟩
    have hzero := within_value 0
    rw [value_zero] at hzero
    simpa [hc] using hzero
  · rw [if_neg hc]
    obtain ⟨n, d, hd, hx, hquotient⟩ := exists_quotient c e
    obtain ⟨m, hm, hnear⟩ := nearestMagnitude_within hd (n := n)
    rw [← hx] at hm
    refine ⟨m, hm, ?_⟩
    obtain ⟨hlow, hhigh⟩ := decimal_bounds (Nat.pos_of_ne_zero hc) e
    dsimp only
    split
    · next htop =>
      have hlarge : value infinityMagnitude ≤ c * 10 ^ e := by
        calc value infinityMagnitude ≤ 10 ^ (60 : Int) := by
              rw [value_infinity]
              norm_num
          _ ≤ 10 ^ ((Nat.toDigits 10 c).length + e - 1) :=
              zpow_le_zpow_right₀ (by norm_num) (by omega)
          _ ≤ c * 10 ^ e := hlow
      exact (Nat.min_eq_left (infinity_le_of_within hm hlarge)).symm
    · split
      · next htop =>
        have htiny : (c : ℚ) * 10 ^ e < 10 ^ (-61 : Int) :=
          hhigh.trans_le (zpow_le_zpow_right₀ (by norm_num) (by omega))
        have hsmall : 2 * ((c : ℚ) * 10 ^ e) < value 1 := by
          calc 2 * ((c : ℚ) * 10 ^ e) < 2 * 10 ^ (-61 : Int) := by linarith
            _ < value 1 := by
              rw [value_one]
              norm_num
        rw [eq_zero_of_within hm hsmall, Nat.min_zero]
      · rw [← hquotient, hnear]

/-- Reading is rounding to the nearest number, infinity being what lies beyond the greatest. -/
theorem nearestDecimal_isNearest (c : Nat) (e : Int) :
    ∃ m, IsNearest (c * 10 ^ e) m ∧ nearestDecimal c e = min infinityMagnitude m := by
  obtain ⟨m, hm, hnear⟩ := nearestDecimal_within c e
  exact ⟨m, isNearest_of_within hm, hnear⟩

theorem nearestDecimal_eq_iff {c m : Nat} {e : Int} (hm : m < infinityMagnitude) :
    nearestDecimal c e = m ↔ Within (c * 10 ^ e) m := by
  constructor
  · intro h
    obtain ⟨n, hn, hnear⟩ := nearestDecimal_within c e
    obtain rfl : n = m := by omega
    exact hn
  · intro h
    obtain ⟨n, hn, hnear⟩ := nearestDecimal_within c e
    obtain rfl := hn.unique h
    omega

theorem gridStep_spec (e : Int) :
    ∃ s, (gridStep e).1 = 2 * s ∧ 0 < (gridStep e).2 ∧
      (10 : ℚ) ^ e = (s : ℚ) / (gridStep e).2 / 2 ^ 149 := by
  unfold gridStep
  rcases le_or_gt 0 e with he | he
  · obtain ⟨k, rfl⟩ := Int.eq_ofNat_of_zero_le he
    rw [if_pos he]
    refine ⟨10 ^ k * 2 ^ 149, ?_, Nat.one_pos, ?_⟩
    · simp only [Nat.pow_eq, Int.toNat_natCast]
      ring
    · push_cast
      simp only [zpow_natCast]
      field_simp
      norm_num
  · obtain ⟨k, hk⟩ := Int.eq_ofNat_of_zero_le (show 0 ≤ -e by omega)
    obtain rfl : e = -(k : Int) := by omega
    rw [if_neg (by omega)]
    refine ⟨2 ^ 149, rfl, Nat.pow_pos (by decide), ?_⟩
    simp only [Nat.pow_eq, neg_neg, Int.toNat_natCast, zpow_neg, zpow_natCast]
    push_cast
    field_simp
    norm_num

theorem readsBack_iff {m c : Nat} {e : Int} :
    readsBack m e c = true ↔ Within (c * 10 ^ e) m := by
  obtain ⟨s, hs, hd, hstep⟩ := gridStep_spec e
  have hx : (c : ℚ) * 10 ^ e = ((c * s : Nat) : ℚ) / (gridStep e).2 / 2 ^ 149 := by
    rw [hstep]
    push_cast
    ring
  have hdouble : c * (gridStep e).1 = 2 * (c * s) := by
    rw [hs]
    ring
  rw [within_iff hd hx]
  unfold readsBack midpoints
  simp only [hdouble]
  generalize (units (m - 1) + units m) * (gridStep e).2 = below
  generalize (units m + units (m + 1)) * (gridStep e).2 = above
  generalize c * s = u
  split
  · simp
    omega
  · simp
    omega

end Predication.Binary32
