import Predication.Text.Blank
import Predication.Text.Decimal

namespace Predication.Text

theorem isDigit_eq (c : Char) : isDigit c = c.isDigit := by
  rw [Bool.eq_iff_iff]
  simp only [isDigit, Char.isDigit, Bool.and_eq_true, decide_eq_true_eq]
  rfl

theorem toList_natText (n : Nat) : (natText n).toList = Nat.toDigits 10 n :=
  String.toList_ofList

theorem isDigit_of_mem_toDigits {n : Nat} {c : Char} (h : c ∈ Nat.toDigits 10 n) :
    isDigit c = true := by
  rw [isDigit_eq]
  exact Nat.isDigit_of_mem_toDigits (by decide) (by decide) h

theorem isBlank_of_isDigit {c : Char} (h : isDigit c = true) : isBlank c = false := by
  simp only [isDigit, Bool.and_eq_true, decide_eq_true_eq] at h
  have h0 : '0'.toNat ≤ c.toNat := UInt32.le_iff_toNat_le.mp h.1
  have h9 : c.toNat ≤ '9'.toNat := UInt32.le_iff_toNat_le.mp h.2
  have hzero : '0'.toNat = 48 := rfl
  have hnine : '9'.toNat = 57 := rfl
  simp [isBlank]
  omega

theorem digitsValue_toDigits (n : Nat) : digitsValue (Nat.toDigits 10 n) = n :=
  Nat.ofDigitChars_ten_toDigits

theorem natText_inj {m n : Nat} : natText m = natText n ↔ m = n := by
  refine ⟨fun h => ?_, congrArg natText⟩
  have hd : Nat.toDigits 10 m = Nat.toDigits 10 n := by
    rw [← toList_natText, h, toList_natText]
  rw [← digitsValue_toDigits m, hd, digitsValue_toDigits]

theorem head_toDigits {n : Nat} (h : 0 < n) :
    ∃ d ds, Nat.toDigits 10 n = d :: ds ∧ d ≠ '0' := by
  induction n using Nat.strongRecOn with
  | ind n ih =>
    by_cases hn : n < 10
    · refine ⟨n.digitChar, [], Nat.toDigits_of_lt_base hn, ?_⟩
      rw [ne_eq, Nat.digitChar_eq_zero]
      omega
    · obtain ⟨d, ds, hd, h0⟩ := ih (n / 10) (by omega) (by omega)
      refine ⟨d, ds ++ [(n % 10).digitChar], ?_, h0⟩
      rw [Nat.toDigits_of_base_le (by decide) (by omega), hd]
      rfl

theorem digitChar_digitValue {c : Char} (h : isDigit c = true) :
    digitValue c < 10 ∧ Nat.digitChar (digitValue c) = c := by
  simp only [isDigit, Bool.and_eq_true, decide_eq_true_eq] at h
  have h0 : '0'.toNat ≤ c.toNat := UInt32.le_iff_toNat_le.mp h.1
  have h9 : c.toNat ≤ '9'.toNat := UInt32.le_iff_toNat_le.mp h.2
  have hv : digitValue c < 10 := by
    rw [digitValue]
    exact Nat.sub_lt_left_of_lt_add h0 (Nat.lt_succ_of_le h9)
  refine ⟨hv, ?_⟩
  apply Char.toNat_inj.mp
  rw [Nat.toNat_digitChar_of_lt_ten hv, digitValue]
  have hzero : '0'.toNat = 48 := rfl
  omega

theorem toDigits_foldl {m : Nat} (hm : 0 < m) {ds : List Char} (hd : ∀ c ∈ ds, isDigit c = true) :
    Nat.toDigits 10 (ds.foldl (fun n d => 10 * n + digitValue d) m) = Nat.toDigits 10 m ++ ds := by
  induction ds generalizing m with
  | nil => rw [List.foldl_nil, List.append_nil]
  | cons d ds ih =>
    obtain ⟨hv, hc⟩ := digitChar_digitValue (hd d List.mem_cons_self)
    have hds : ∀ c ∈ ds, isDigit c = true := fun c h => hd c (List.mem_cons_of_mem d h)
    rw [List.foldl_cons, ih (by omega) hds, ← Nat.toDigits_append_toDigits (by decide) hm hv,
      Nat.toDigits_of_lt_base hv, hc, List.append_assoc]
    rfl

theorem toDigits_digitsValue {d : Char} {ds : List Char} (h0 : d ≠ '0')
    (hd : ∀ c ∈ d :: ds, isDigit c = true) :
    Nat.toDigits 10 (digitsValue (d :: ds)) = d :: ds := by
  obtain ⟨hv, hc⟩ := digitChar_digitValue (hd d List.mem_cons_self)
  have hpos : 0 < digitValue d := by
    apply Nat.pos_of_ne_zero
    intro hz
    rw [hz] at hc
    exact h0 hc.symm
  have hds : ∀ c ∈ ds, isDigit c = true := fun c h => hd c (List.mem_cons_of_mem d h)
  rw [digitsValue, List.foldl_cons, Nat.mul_zero, Nat.zero_add, toDigits_foldl hpos hds,
    Nat.toDigits_of_lt_base hv, hc]
  rfl

end Predication.Text
