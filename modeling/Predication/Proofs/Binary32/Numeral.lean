import Predication.Binary32.Printer
import Predication.Binary32.Reader
import Predication.Proofs.Binary32.Shortest
import Predication.Proofs.Text.Decimal

namespace Predication

namespace Text

theorem digitsValue_append (ds es : List Char) :
    digitsValue (ds ++ es) = digitsValue ds * 10 ^ es.length + digitsValue es := by
  have hsplit : digitsValue (ds ++ es) = Nat.ofDigitChars 10 es (digitsValue ds) :=
    Nat.ofDigitChars_append 0
  rw [hsplit, Nat.ofDigitChars_eq_ofDigitChars_zero, Nat.mul_comm]
  rfl

theorem digitsValue_zeros (n : Nat) : digitsValue (List.replicate n '0') = 0 := by
  induction n with
  | zero => rfl
  | succ n ih =>
    rw [List.replicate_succ]
    exact ih

end Text

namespace Binary32

open Text

def Numeral.value (n : Numeral) : ℚ :=
  n.digits * 10 ^ n.exponent

theorem isDigit_of_mem_zeros {k : Nat} {c : Char} (h : c ∈ zeros k) : isDigit c = true := by
  rw [List.eq_of_mem_replicate h]
  decide

section

variable {ds fs : List Char} (hne : ds ≠ []) (hds : ∀ c ∈ ds, isDigit c = true)

include hne hds

theorem read?_whole : Numeral.read? ds = some ⟨digitsValue ds, 0⟩ := by
  have htake : ds.takeWhile isDigit = ds := List.takeWhile_eq_self_iff.mpr hds
  have hdrop : ds.dropWhile isDigit = [] := List.dropWhile_eq_nil_iff.mpr hds
  simp [Numeral.read?, htake, hdrop, hne, readExponent?]

theorem read?_point (hfs : ∀ c ∈ fs, isDigit c = true) :
    Numeral.read? (ds ++ '.' :: fs) = some ⟨digitsValue (ds ++ fs), -fs.length⟩ := by
  have hpoint : isDigit '.' = false := by decide
  have htake : (ds ++ '.' :: fs).takeWhile isDigit = ds := by
    rw [List.takeWhile_append_of_pos hds, List.takeWhile_cons_of_neg (by simp [hpoint]),
      List.append_nil]
  have hdrop : (ds ++ '.' :: fs).dropWhile isDigit = '.' :: fs := by
    rw [List.dropWhile_append_of_pos hds, List.dropWhile_cons_of_neg (by simp [hpoint])]
  have hfraction : fs.takeWhile isDigit = fs := List.takeWhile_eq_self_iff.mpr hfs
  have hrest : fs.dropWhile isDigit = [] := List.dropWhile_eq_nil_iff.mpr hfs
  simp [Numeral.read?, htake, hdrop, hfraction, hrest, hne, readExponent?]

theorem read?_positional_whole (k : Nat) :
    Numeral.read? (positional false ds k) = some ⟨digitsValue (ds ++ zeros k), 0⟩ := by
  have hwhole : positional false ds k = ds ++ zeros k := by
    simp [positional]
  have hdigits : ∀ c ∈ ds ++ zeros k, isDigit c = true :=
    List.forall_mem_append.mpr ⟨hds, fun _ => isDigit_of_mem_zeros⟩
  rw [hwhole]
  exact read?_whole (List.append_ne_nil_of_left_ne_nil hne _) hdigits

theorem read?_positional_point {k : Nat} (hk : 0 < k) :
    Numeral.read? (positional false ds (-k)) = some ⟨digitsValue ds, -k⟩ := by
  have hneg : ¬ 0 ≤ -(k : Int) := by omega
  rw [positional, if_neg hneg]
  simp only [neg_neg, Int.toNat_natCast]
  split
  · next hplaces =>
    have hwhole : ds.take (ds.length - k) ≠ [] := by
      rw [ne_eq, List.take_eq_nil_iff]
      rintro (hzero | hnil)
      · omega
      · exact hne hnil
    have hlen : (ds.drop (ds.length - k)).length = k := by
      rw [List.length_drop]
      omega
    have hread := read?_point hwhole (fun c hc => hds c (List.mem_of_mem_take hc))
      fun c hc => hds c (List.mem_of_mem_drop (i := ds.length - k) hc)
    rwa [List.take_append_drop, hlen] at hread
  · next hplaces =>
    have hfraction : ∀ c ∈ zeros (k - ds.length) ++ ds, isDigit c = true :=
      List.forall_mem_append.mpr ⟨fun _ => isDigit_of_mem_zeros, hds⟩
    have hlen : (zeros (k - ds.length) ++ ds).length = k := by
      rw [List.length_append, zeros, List.length_replicate]
      omega
    have hvalue : digitsValue (['0'] ++ (zeros (k - ds.length) ++ ds)) = digitsValue ds := by
      have hzeros : ['0'] ++ zeros (k - ds.length) = List.replicate (k - ds.length + 1) '0' := rfl
      rw [← List.append_assoc, hzeros, digitsValue_append, digitsValue_zeros, Nat.zero_mul,
        Nat.zero_add]
    have hzero : ∀ c ∈ ['0'], isDigit c = true := by simp [isDigit]
    have hread := read?_point (List.cons_ne_nil '0' []) hzero hfraction
    rwa [hvalue, hlen] at hread

theorem read?_positional (e : Int) :
    ∃ n, Numeral.read? (positional false ds e) = some n ∧ n.value = digitsValue ds * 10 ^ e := by
  rcases le_or_gt 0 e with he | he
  · obtain ⟨k, rfl⟩ := Int.eq_ofNat_of_zero_le he
    refine ⟨_, read?_positional_whole hne hds k, ?_⟩
    simp [Numeral.value, zeros, digitsValue_append, digitsValue_zeros]
  · obtain ⟨k, hk⟩ := Int.eq_ofNat_of_zero_le (show 0 ≤ -e by omega)
    obtain rfl : e = -(k : Int) := by omega
    exact ⟨_, read?_positional_point hne hds (by omega), rfl⟩

end

theorem mem_positional {ds : List Char} {e : Int} {c : Char}
    (hds : ∀ c ∈ ds, isDigit c = true) (h : c ∈ positional false ds e) :
    isDigit c = true ∨ c = '.' := by
  unfold positional at h
  split at h
  · simp only [Bool.false_eq_true, if_false, List.append_nil, List.mem_append] at h
    exact .inl (h.elim (hds c) isDigit_of_mem_zeros)
  · dsimp only at h
    split at h
    · simp only [List.mem_append, List.mem_cons] at h
      rcases h with hc | rfl | hc
      · exact .inl (hds c (List.mem_of_mem_take hc))
      · exact .inr rfl
      · exact .inl (hds c (List.mem_of_mem_drop hc))
    · simp only [List.cons_append, List.mem_cons, List.mem_append] at h
      rcases h with rfl | rfl | hc | hc
      · exact .inl (by decide)
      · exact .inr rfl
      · exact .inl (isDigit_of_mem_zeros hc)
      · exact .inl (hds c hc)

theorem toDigits_eq_trimmed (d : Decimal) :
    ∃ k, Nat.toDigits 10 d.digits = d.trimmed.1 ++ zeros k ∧ d.trimmed.2 = d.exponent + k := by
  let ds := Nat.toDigits 10 d.digits
  have hfinal : ds.reverse.takeWhile (· == '0') =
      zeros (ds.reverse.takeWhile (· == '0')).length := by
    refine List.eq_replicate_iff.mpr ⟨rfl, ?_⟩
    intro c hc
    have hzero := List.mem_takeWhile_imp (p := (· == '0')) hc
    exact beq_iff_eq.mp hzero
  generalize (ds.reverse.takeWhile (· == '0')).length = k at hfinal
  have hdigits : ds = d.trimmed.1 ++ zeros k := by
    calc ds = (ds.reverse.takeWhile (· == '0') ++ ds.reverse.dropWhile (· == '0')).reverse := by
          rw [List.takeWhile_append_dropWhile, List.reverse_reverse]
      _ = d.trimmed.1 ++ zeros k := by
          rw [List.reverse_append, hfinal, zeros, List.reverse_replicate]
          rfl
  refine ⟨k, hdigits, ?_⟩
  have hlen := congrArg List.length hdigits
  rw [List.length_append, zeros, List.length_replicate] at hlen
  change d.exponent + (ds.length - d.trimmed.1.length : Nat) = _
  omega

theorem trimmed_spec {d : Decimal} (hd : 0 < d.digits) :
    d.trimmed.1 ≠ [] ∧ (∀ c ∈ d.trimmed.1, isDigit c = true) ∧
      d.trimmed.1.length ≤ (Nat.toDigits 10 d.digits).length ∧
      (digitsValue d.trimmed.1 : ℚ) * 10 ^ d.trimmed.2 = d.digits * 10 ^ d.exponent := by
  obtain ⟨k, hdigits, hexp⟩ := toDigits_eq_trimmed d
  have hvalue := digitsValue_toDigits d.digits
  rw [hdigits, digitsValue_append, zeros, digitsValue_zeros, List.length_replicate,
    Nat.add_zero] at hvalue
  refine ⟨?_, ?_, ?_, ?_⟩
  · intro hnil
    rw [hnil, show digitsValue [] = 0 from rfl, Nat.zero_mul] at hvalue
    omega
  · intro c hc
    exact isDigit_of_mem_toDigits (hdigits ▸ List.mem_append_left _ hc)
  · rw [hdigits, List.length_append]
    omega
  · rw [hexp, zpow_add₀ (by norm_num), zpow_natCast, ← hvalue]
    push_cast
    ring

end Binary32

end Predication
