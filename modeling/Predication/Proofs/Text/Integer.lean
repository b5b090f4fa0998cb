import Predication.Proofs.Text.Decimal
import Mathlib.Data.List.Basic
import Mathlib.Data.List.Induction

namespace Predication.Text

inductive Counts : List Char → Nat → Prop
  | digit {d : Nat} (small : d < 10) : Counts [Nat.digitChar d] d
  | behind {cs : List Char} {n d : Nat} (front : Counts cs n) (small : d < 10) :
      Counts (cs ++ [Nat.digitChar d]) (10 * n + d)

inductive Denotes : List Char → Int → Prop
  | plain {cs : List Char} {n : Nat} (digits : Counts cs n) : Denotes cs n
  | plus {cs : List Char} {n : Nat} (digits : Counts cs n) : Denotes ('+' :: cs) n
  | minus {cs : List Char} {n : Nat} (digits : Counts cs n) : Denotes ('-' :: cs) (-n)

theorem digit_of_digitChar {d : Nat} (h : d < 10) :
    isDigit (Nat.digitChar d) = true ∧ digitValue (Nat.digitChar d) = d := by
  revert d
  decide

theorem digitsValue_concat (cs : List Char) (c : Char) :
    digitsValue (cs ++ [c]) = 10 * digitsValue cs + digitValue c := by
  simp [digitsValue]

theorem counts_iff (cs : List Char) (n : Nat) :
    Counts cs n ↔ cs ≠ [] ∧ (∀ c ∈ cs, isDigit c = true) ∧ digitsValue cs = n := by
  constructor
  · intro h
    induction h with
    | digit small =>
      obtain ⟨hd, hv⟩ := digit_of_digitChar small
      exact ⟨by simp, by simpa using hd, by simpa [digitsValue] using hv⟩
    | behind front small ih =>
      obtain ⟨hd, hv⟩ := digit_of_digitChar small
      obtain ⟨-, hall, hn⟩ := ih
      refine ⟨by simp, ?_, by rw [digitsValue_concat, hn, hv]⟩
      intro c hc
      rcases List.mem_append.mp hc with hc | hc
      · exact hall c hc
      · exact List.mem_singleton.mp hc ▸ hd
  · rintro ⟨hne, hall, rfl⟩
    induction cs using List.reverseRecOn with
    | nil => exact absurd rfl hne
    | append_singleton cs c ih =>
      obtain ⟨hsmall, hc⟩ := digitChar_digitValue (hall c (by simp))
      rw [digitsValue_concat]
      rcases List.eq_nil_or_concat' cs with rfl | ⟨front, last, hcs⟩
      · have h := Counts.digit hsmall
        rw [hc] at h
        simpa [digitsValue] using h
      · have hfront := ih (by simp [hcs]) fun d hd => hall d (List.mem_append_left [c] hd)
        have h := hfront.behind hsmall
        rw [hc] at h
        exact h

theorem counts_of_accepted {α : Type} {ds : List Char} {f : Nat → α} {v : α}
    (h : (if ds.isEmpty || !ds.all isDigit then none else some (f (digitsValue ds))) = some v) :
    ∃ n, Counts ds n ∧ f n = v := by
  split at h
  · cases h
  · next hd =>
    simp only [Bool.or_eq_true, not_or, List.isEmpty_iff, Bool.not_eq_true', Bool.not_eq_false,
      List.all_eq_true] at hd
    exact ⟨digitsValue ds, (counts_iff _ _).mpr ⟨hd.1, hd.2, rfl⟩, Option.some.inj h⟩

theorem accepted_of_counts {α : Type} {ds : List Char} {n : Nat} (h : Counts ds n) (f : Nat → α) :
    (if ds.isEmpty || !ds.all isDigit then none else some (f (digitsValue ds))) = some (f n) := by
  obtain ⟨hne, hall, hn⟩ := (counts_iff ds n).mp h
  rw [if_neg, hn]
  simpa [hne] using hall

theorem readInt?_eq_some_iff (cs : List Char) (v : Int) : readInt? cs = some v ↔ Denotes cs v := by
  constructor
  · intro h
    unfold readInt? at h
    split at h
    · obtain ⟨n, hn, rfl⟩ := counts_of_accepted (f := fun n => (n : Int)) h
      exact .plus hn
    · obtain ⟨n, hn, rfl⟩ := counts_of_accepted (f := fun n => -(n : Int)) h
      exact .minus hn
    · obtain ⟨n, hn, rfl⟩ := counts_of_accepted (f := fun n => (n : Int)) h
      exact .plain hn
  · intro h
    cases h with
    | plus digits => exact accepted_of_counts digits fun n => (n : Int)
    | minus digits => exact accepted_of_counts digits fun n => -(n : Int)
    | plain digits =>
      -- A sign is no digit, so digits alone are read as they stand.
      obtain ⟨-, hall, -⟩ := (counts_iff _ _).mp digits
      unfold readInt?
      split
      · cases hall '+' List.mem_cons_self
      · cases hall '-' List.mem_cons_self
      · exact accepted_of_counts digits fun n => (n : Int)

theorem readInt64?_eq_some_iff (cs : List Char) (v : Int) :
    readInt64? cs = some v ↔
      Denotes cs v ∧ -0x8000000000000000 ≤ v ∧ v < 0x8000000000000000 := by
  rw [readInt64?, Option.filter_eq_some_iff, readInt?_eq_some_iff, Bool.and_eq_true,
    decide_eq_true_eq, decide_eq_true_eq]

end Predication.Text
