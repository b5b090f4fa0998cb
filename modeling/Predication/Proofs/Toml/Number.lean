import Predication.Proofs.Binary32.Decimal
import Predication.Proofs.Json.Quoted
import Predication.Proofs.Toml.Grammar

namespace Predication.Toml

open Json (HexDigit hexValue?)
open Text (isDigit digitsValue)

section Run

variable {p : Char → Bool} {xs ys : List Char}

def Stops (p : Char → Bool) (ys : List Char) : Prop :=
  ∀ c ∈ ys.head?, p c = false

theorem stops_nil : Stops p [] := by
  simp [Stops]

theorem stops_cons {c : Char} (h : p c = false) (ys : List Char) : Stops p (c :: ys) := by
  intro d hd
  cases hd
  exact h

theorem takeWhile_run (hx : ∀ c ∈ xs, p c = true) (hy : Stops p ys) :
    (xs ++ ys).takeWhile p = xs := by
  rw [List.takeWhile_append_of_pos hx]
  cases ys with
  | nil => simp
  | cons c ys => simp [hy c rfl]

theorem dropWhile_run (hx : ∀ c ∈ xs, p c = true) (hy : Stops p ys) :
    (xs ++ ys).dropWhile p = ys := by
  rw [List.dropWhile_append_of_pos hx]
  cases ys with
  | nil => simp
  | cons c ys => simp [hy c rfl]

theorem span_loop_run (hx : ∀ c ∈ xs, p c = true) (hy : Stops p ys) (acc : List Char) :
    List.span.loop p (xs ++ ys) acc = (acc.reverse ++ xs, ys) := by
  induction xs generalizing acc with
  | nil =>
    cases ys with
    | nil => simp [List.span.loop]
    | cons c ys => simp [List.span.loop, hy c rfl]
  | cons x xs ih =>
    rw [List.cons_append, List.span.loop, hx x List.mem_cons_self,
      ih fun c hc => hx c (List.mem_cons_of_mem x hc)]
    simp

theorem span_run (hx : ∀ c ∈ xs, p c = true) (hy : Stops p ys) : (xs ++ ys).span p = (xs, ys) :=
  span_loop_run hx hy []

end Run

section Digits

variable {digit : Char → Bool} {P : Char → Prop} {cs ds : List Char}

theorem isDigitRun_of_digitRun (hP : ∀ c, P c → digit c = true) (hu : digit '_' = false)
    (h : DigitRun P cs) : isDigitRun digit cs = true := by
  have hne {d : Char} (hd : P d) : d ≠ '_' := by
    rintro rfl
    exact absurd (hP _ hd) (by rw [hu]; decide)
  have head {d : Char} {ds : List Char} (h : DigitRun P (d :: ds)) : d ≠ '_' := by
    cases h with
    | last h => exact hne h
    | digit h hs => exact hne h
    | underscore h hs => exact hne h
  induction h with
  | last h => exact hP _ h
  | @digit c cs h hs ih =>
    cases cs with
    | nil => cases hs
    | cons d ds =>
      rw [isDigitRun, ih, hP c h]
      · rfl
      · simp
      · intro r hr
        exact head hs (List.cons.inj hr).1
  | @underscore c cs h hs ih => rw [isDigitRun, ih, hP c h, Bool.and_self]

theorem DigitRun.forall_mem (h : DigitRun P cs) : ∀ c ∈ cs, P c ∨ c = '_' := by
  induction h with
  | last h =>
    intro c hc
    exact .inl (List.mem_singleton.mp hc ▸ h)
  | digit h hs ih => exact List.forall_mem_cons.mpr ⟨.inl h, ih⟩
  | underscore h hs ih =>
    exact List.forall_mem_cons.mpr ⟨.inl h, List.forall_mem_cons.mpr ⟨.inr rfl, ih⟩⟩

theorem DigitRun.head (h : DigitRun P cs) : ∃ c r, cs = c :: r ∧ P c := by
  cases h with
  | last h => exact ⟨_, _, rfl, h⟩
  | digit h hs => exact ⟨_, _, rfl, h⟩
  | underscore h hs => exact ⟨_, _, rfl, h⟩

theorem DigitRun.isDigitRun (h : DigitRun Decimal cs) : isDigitRun isDigit cs = true :=
  isDigitRun_of_digitRun (fun _ h => h) (by decide) h

theorem Decimal.ne {c d : Char} (h : Decimal c) (hd : isDigit d = false) : c ≠ d := by
  rintro rfl
  exact absurd h (by rw [Decimal, hd]; decide)

end Digits

section Sign

variable {sign cs ds : List Char} {c : Char}

theorem Whole.head (h : Whole cs) : ∃ c r, cs = c :: r ∧ Decimal c := by
  cases h with
  | zero => exact ⟨'0', [], rfl, by decide⟩
  | run h h0 =>
    obtain ⟨c, r, he, hc⟩ := h.head
    exact ⟨c, r, he, hc⟩

theorem Whole.isWhole (h : Whole cs) : isWhole cs = true := by
  cases h with
  | zero => rfl
  | @run c cs h h0 =>
    rw [Toml.isWhole, h.isDigitRun]
    simp [h0]

theorem Whole.forall_mem (h : Whole cs) : ∀ c ∈ cs, Decimal c ∨ c = '_' := by
  cases h with
  | zero =>
    intro c hc
    exact .inl (List.mem_singleton.mp hc ▸ (by decide : Decimal '0'))
  | run h h0 => exact h.forall_mem

theorem dropSign_append (hs : Sign sign) (hc : c ≠ '+' ∧ c ≠ '-') :
    dropSign (sign ++ c :: cs) = c :: cs := by
  cases hs with
  | absent =>
    rw [List.nil_append, dropSign]
    · intro r h
      exact hc.1 (List.cons.inj h).1
    · intro r h
      exact hc.2 (List.cons.inj h).1
  | plus => rfl
  | minus => rfl

theorem dropSign_decimal (hs : Sign sign) (hd : ∃ c r, ds = c :: r ∧ Decimal c) :
    dropSign (sign ++ ds) = ds := by
  obtain ⟨c, r, rfl, hc⟩ := hd
  exact dropSign_append hs ⟨hc.ne (by decide), hc.ne (by decide)⟩

end Sign

section Integer

theorem isDecimalInteger_of_whole {sign ds : List Char} (hs : Sign sign) (hd : Whole ds)
    (hr : digitsValue (withoutUnderscores ds) < 2 ^ 63 ∨
      sign = ['-'] ∧ digitsValue (withoutUnderscores ds) = 2 ^ 63) :
    isDecimalInteger (sign ++ ds) = true := by
  rw [isDecimalInteger, dropSign_decimal hs hd.head, hd.isWhole, Bool.true_and, Bool.or_eq_true,
    Bool.and_eq_true, decide_eq_true_eq, beq_iff_eq]
  rcases hr with hr | ⟨rfl, hr⟩
  · exact .inl hr
  · exact .inr ⟨hr, rfl⟩

theorem isInteger_decimal {sign ds : List Char} (hs : Sign sign) (hd : Whole ds) :
    isInteger (sign ++ ds) = isDecimalInteger (sign ++ ds) := by
  have hne (x : Char) (r : List Char) : sign ++ ds ≠ '0' :: x :: r := by
    intro h
    cases hs with
    | absent =>
      cases hd with
      | zero => cases h
      | run hd h0 => exact h0 (List.cons.inj h).1
    | plus => cases h
    | minus => cases h
  rw [isInteger.eq_def]
  split
  · next h => exact absurd h (hne _ _)
  · next h => exact absurd h (hne _ _)
  · next h => exact absurd h (hne _ _)
  · rfl

theorem isBaseInteger_of_digitRun {base : Nat} {ds : List Char}
    (hd : DigitRun (BaseDigit base) ds) (hr : baseValue base (withoutUnderscores ds) < 2 ^ 63) :
    isBaseInteger base ds = true := by
  rw [isBaseInteger, isDigitRun_of_digitRun ?_ ?_ hd, Bool.true_and, decide_eq_true_eq]
  · exact hr
  · rintro c ⟨n, hn, hc⟩
    simp only [Json.hexValue?_eq_some_iff.mpr hc, decide_eq_true_eq]
    exact hn
  · rfl

theorem Integer.isInteger {cs : List Char} (h : Integer cs) : isInteger cs = true := by
  cases h with
  | decimal hs hd hr => rw [isInteger_decimal hs hd, isDecimalInteger_of_whole hs hd hr]
  | based hb hd hr =>
    cases hb with
    | hexadecimal => exact isBaseInteger_of_digitRun hd hr
    | octal => exact isBaseInteger_of_digitRun hd hr
    | binary => exact isBaseInteger_of_digitRun hd hr

end Integer

section Float

theorem overflow_lt : (2 : ℚ) ^ 1024 - 2 ^ 970 < 10 ^ 320 := by
  have hpos : (0 : ℚ) < 2 ^ 970 := by positivity
  calc (2 : ℚ) ^ 1024 - 2 ^ 970 < 2 ^ 1024 := sub_lt_self _ hpos
    _ = (2 ^ 16) ^ 64 := by rw [← pow_mul]
    _ ≤ (10 ^ 5) ^ 64 := pow_le_pow_left₀ (by norm_num) (by norm_num) 64
    _ = 10 ^ 320 := by rw [← pow_mul]

theorem reaches_eq_false {c m n : Nat} {e : Int} (hmn : n ≤ m)
    (h : (c : ℚ) * 10 ^ e < 2 ^ m - 2 ^ n) :
    (if 0 ≤ e then decide (Nat.pow 2 m - Nat.pow 2 n ≤ c * Nat.pow 10 e.toNat)
      else decide ((Nat.pow 2 m - Nat.pow 2 n) * Nat.pow 10 (-e).toNat ≤ c)) = false := by
  have hbound : ((2 ^ m - 2 ^ n : Nat) : ℚ) = 2 ^ m - 2 ^ n := by
    rw [Nat.cast_sub (Nat.pow_le_pow_right (by decide) hmn), Nat.cast_pow, Nat.cast_pow,
      Nat.cast_ofNat]
  simp only [Nat.pow_eq]
  rw [← hbound] at h
  generalize 2 ^ m - 2 ^ n = bound at h ⊢
  split
  · next he =>
    obtain ⟨k, rfl⟩ := Int.eq_ofNat_of_zero_le he
    rw [zpow_natCast] at h
    rw [decide_eq_false_iff_not, Nat.not_le, Int.toNat_natCast]
    exact_mod_cast h
  · next he =>
    obtain ⟨k, hk⟩ := Int.eq_ofNat_of_zero_le (show 0 ≤ -e by omega)
    obtain rfl : e = -(k : Int) := by omega
    rw [zpow_neg, zpow_natCast, ← div_eq_mul_inv, div_lt_iff₀ (by positivity)] at h
    rw [decide_eq_false_iff_not, Nat.not_le, neg_neg, Int.toNat_natCast]
    exact_mod_cast h

theorem overflows64_eq_false {c : Nat} {e : Int} (h : Finite c e) : overflows64 c e = false := by
  rw [Finite] at h
  rw [overflows64]
  split
  · rfl
  · next hc =>
    simp only [Bool.or_eq_true, decide_eq_true_eq, not_or] at hc
    obtain ⟨hlow, -⟩ := Binary32.decimal_bounds (Nat.pos_of_ne_zero hc.1) e
    split
    · next htop =>
      have hlarge : (2 : ℚ) ^ 1024 - 2 ^ 970 < c * 10 ^ e := by
        calc (2 : ℚ) ^ 1024 - 2 ^ 970 < 10 ^ ((320 : Nat) : Int) := by
              rw [zpow_natCast]
              exact overflow_lt
          _ ≤ 10 ^ ((Nat.toDigits 10 c).length + e - 1) :=
              zpow_le_zpow_right₀ (by norm_num) (by omega)
          _ ≤ c * 10 ^ e := hlow
      exact absurd h hlarge.not_gt
    · apply reaches_eq_false (by decide)
      exact h

variable {fraction places exponent : List Char} {power : Int}

theorem Fraction.form (h : Fraction fraction places) :
    (fraction.isEmpty || isDigitRun isDigit fraction.tail) = true ∧
      withoutUnderscores fraction.tail = places := by
  cases h with
  | absent => exact ⟨rfl, rfl⟩
  | places h => exact ⟨h.isDigitRun, rfl⟩

theorem Fraction.stops (h : Fraction fraction places) : Stops (· != '.') fraction := by
  cases h with
  | absent => exact stops_nil
  | places h => exact stops_cons rfl _

theorem Fraction.forall_mem (h : Fraction fraction places) :
    ∀ c ∈ fraction, c = '.' ∨ Decimal c ∨ c = '_' := by
  cases h with
  | absent => exact fun c hc => by cases hc
  | places h =>
    exact List.forall_mem_cons.mpr ⟨.inl rfl, fun c hc => .inr (h.forall_mem c hc)⟩

theorem Exponent.form (h : Exponent exponent power) :
    (exponent.isEmpty || isDigitRun isDigit (dropSign exponent.tail)) = true ∧
      (if exponent.tail.head? = some '-'
        then -(digitsValue (withoutUnderscores (dropSign exponent.tail)) : Int)
        else digitsValue (withoutUnderscores (dropSign exponent.tail))) = power := by
  cases h with
  | absent => exact ⟨rfl, rfl⟩
  | @up e sign ds he hs h =>
    have hsign : Sign sign := by
      rcases hs with rfl | rfl
      · exact .absent
      · exact .plus
    have hhead : (sign ++ ds).head? ≠ some '-' := by
      obtain ⟨c, r, rfl, hc⟩ := h.head
      rcases hs with rfl | rfl
      · intro heq
        exact hc.ne (by decide) (Option.some.inj heq)
      · simp
    rw [List.tail_cons, dropSign_decimal hsign h.head, if_neg hhead, h.isDigitRun, Bool.or_true]
    exact ⟨rfl, rfl⟩
  | down he h => exact ⟨h.isDigitRun, rfl⟩

theorem Exponent.stops (h : Exponent exponent power) :
    Stops (fun c => c != 'e' && c != 'E') exponent := by
  cases h with
  | absent => exact stops_nil
  | up he hs h => rcases he with rfl | rfl <;> exact stops_cons rfl _
  | down he h => rcases he with rfl | rfl <;> exact stops_cons rfl _

theorem isDecimalFloat_of_finite {sign whole : List Char} (hs : Sign sign) (hw : Whole whole)
    (hf : Fraction fraction places) (he : Exponent exponent power) (hne : fraction ++ exponent ≠ [])
    (hr : sign = ['-'] ∨
      Finite (digitsValue (withoutUnderscores whole ++ places)) (power - places.length)) :
    isDecimalFloat (sign ++ (whole ++ (fraction ++ exponent))) = true := by
  have hhead : ∃ c r, whole ++ (fraction ++ exponent) = c :: r ∧ Decimal c := by
    obtain ⟨c, r, rfl, hc⟩ := hw.head
    exact ⟨c, r ++ (fraction ++ exponent), rfl, hc⟩
  have hmantissa : (whole ++ (fraction ++ exponent)).span (fun c => c != 'e' && c != 'E') =
      (whole ++ fraction, exponent) := by
    rw [← List.append_assoc]
    refine span_run (fun c hc => ?_) he.stops
    have hc : c = '.' ∨ Decimal c ∨ c = '_' := by
      rcases List.mem_append.mp hc with hc | hc
      · exact .inr (hw.forall_mem c hc)
      · exact hf.forall_mem c hc
    rcases hc with rfl | hc | rfl
    · rfl
    · rw [bne_iff_ne.mpr (hc.ne (by decide)), bne_iff_ne.mpr (hc.ne (by decide)), Bool.and_self]
    · rfl
  have hpoint : (whole ++ fraction).span (· != '.') = (whole, fraction) := by
    refine span_run (fun c hc => ?_) hf.stops
    rcases hw.forall_mem c hc with hc | rfl
    · exact bne_iff_ne.mpr (hc.ne (by decide))
    · rfl
  have hsome : (fraction.isEmpty && exponent.isEmpty) = false := by
    rw [Bool.eq_false_iff]
    intro h
    rw [Bool.and_eq_true, List.isEmpty_iff, List.isEmpty_iff] at h
    exact hne (by rw [h.1, h.2, List.append_nil])
  have hfinite : ((sign ++ (whole ++ (fraction ++ exponent))).head? == some '-' ||
      !overflows64 (digitsValue (withoutUnderscores whole ++ places)) (power - places.length)) =
        true := by
    rcases hr with rfl | hr
    · rfl
    · rw [overflows64_eq_false hr, Bool.not_false, Bool.or_true]
  rw [isDecimalFloat, dropSign_decimal hs hhead]
  simp only [hmantissa, hpoint, hw.isWhole, hf.form, he.form, hsome, hfinite, Bool.not_false,
    Bool.and_self]

theorem Float.isFloat {cs : List Char} (h : Float cs) :
    (isDecimalFloat cs || isSpecialFloat cs) = true := by
  cases h with
  | finite hs hw hf he hne hr => rw [isDecimalFloat_of_finite hs hw hf he hne hr, Bool.true_or]
  | infinity hs =>
    rw [isSpecialFloat, dropSign_append hs (by decide)]
    exact Bool.or_true _
  | notNumber hs =>
    rw [isSpecialFloat, dropSign_append hs (by decide)]
    exact Bool.or_true _

end Float

end Predication.Toml
