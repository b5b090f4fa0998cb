import Predication.KeyMap
import Mathlib.Data.List.Basic
import Mathlib.Data.String.Basic

namespace Predication.KeyMap

section Keys

variable {κ α : Type} [DecidableEq κ]

theorem get?_eq_none_iff (k : κ) (m : KeyMap κ α) : m.get? k = none ↔ k ∉ m.keys := by
  induction m with
  | nil => simp [keys]
  | cons p rest ih =>
    obtain ⟨j, b⟩ := p
    by_cases hkj : k = j
    · simp [get?, keys, hkj]
    · simpa [get?, keys, hkj] using ih

theorem mem_keys_iff (k : κ) (m : KeyMap κ α) : k ∈ m.keys ↔ (m.get? k).isSome := by
  rw [← Option.ne_none_iff_isSome, ne_eq, get?_eq_none_iff, not_not]

theorem mem_keys_insert [LT κ] [DecidableLT κ] (j k : κ) (a : α) (m : KeyMap κ α) :
    j ∈ (m.insert k a).keys ↔ j = k ∨ j ∈ m.keys := by
  rw [mem_keys_iff, mem_keys_iff, get?_insert]
  by_cases h : j = k <;> simp [h]

end Keys

variable {α : Type} {m n : KeyMap String α}

theorem ascending_iff_keys : Ascending m ↔ m.keys.Pairwise (· < ·) := by
  rw [Ascending, keys, List.pairwise_map]

theorem Ascending.insert (h : Ascending m) (k : String) (a : α) : Ascending (m.insert k a) := by
  induction m with
  | nil => exact List.pairwise_singleton _ _
  | cons p rest ih =>
    obtain ⟨j, b⟩ := p
    obtain ⟨hj, hrest⟩ := List.pairwise_cons.mp h
    rw [KeyMap.insert]
    split
    · next hkj =>
      subst hkj
      exact List.pairwise_cons.mpr ⟨hj, hrest⟩
    · next hkj =>
      split
      · next hlt =>
        refine List.pairwise_cons.mpr ⟨?_, h⟩
        intro q hq
        rcases List.mem_cons.mp hq with rfl | hq
        · exact hlt
        · exact String.lt_trans hlt (hj q hq)
      · next hlt =>
        have hjk : j < k := lt_of_le_of_ne (not_lt.mp hlt) (Ne.symm hkj)
        refine List.pairwise_cons.mpr ⟨?_, ih hrest⟩
        intro q hq
        have hmem : q.1 ∈ (KeyMap.insert k a rest).keys := List.mem_map_of_mem hq
        rcases (mem_keys_insert q.1 k a rest).mp hmem with hk | hr
        · exact hk ▸ hjk
        · obtain ⟨r, hr, he⟩ := List.mem_map.mp hr
          exact he ▸ hj r hr

theorem Ascending.get?_tail {k : String} {a : α} (h : Ascending ((k, a) :: m)) :
    m.get? k = none := by
  rw [get?_eq_none_iff]
  intro hk
  obtain ⟨q, hq, rfl⟩ := List.mem_map.mp hk
  exact String.lt_irrefl _ ((List.pairwise_cons.mp h).1 q hq)

theorem Ascending.le_of_get? {j k : String} {a b : α} (h : Ascending ((j, a) :: m))
    (hk : get? k ((j, a) :: m) = some b) : j ≤ k := by
  by_cases hkj : k = j
  · exact hkj ▸ le_refl _
  · have hmem : k ∈ keys m := by
      rw [mem_keys_iff]
      rw [get?, if_neg hkj] at hk
      rw [hk]
      rfl
    obtain ⟨q, hq, rfl⟩ := List.mem_map.mp hmem
    exact le_of_lt ((List.pairwise_cons.mp h).1 q hq)

theorem Ascending.ext (hm : Ascending m) (hn : Ascending n) (h : ∀ k, m.get? k = n.get? k) :
    m = n := by
  induction m generalizing n with
  | nil =>
    cases n with
    | nil => rfl
    | cons q n =>
      have hq := h q.1
      simp [get?] at hq
  | cons p m ih =>
    cases n with
    | nil =>
      have hp := h p.1
      simp [get?] at hp
    | cons q n =>
      obtain ⟨j, a⟩ := p
      obtain ⟨k, b⟩ := q
      have hj : get? j ((j, a) :: m) = some a := by simp [get?]
      have hk : get? k ((k, b) :: n) = some b := by simp [get?]
      have hjk : j = k := le_antisymm (hm.le_of_get? ((h k).trans hk))
        (hn.le_of_get? ((h j).symm.trans hj))
      subst hjk
      have hab : a = b := Option.some.inj (hj.symm.trans ((h j).trans hk))
      subst hab
      have hrest : m = n := by
        refine ih (List.pairwise_cons.mp hm).2 (List.pairwise_cons.mp hn).2 fun l => ?_
        by_cases hl : l = j
        · rw [hl, hm.get?_tail, hn.get?_tail]
        · have hget := h l
          simpa [get?, hl] using hget
      rw [hrest]

end Predication.KeyMap
