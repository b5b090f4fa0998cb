import Predication.Definition.SeedFile
import Predication.Proofs.Toml.Grammar

namespace Predication.Toml

open Definition (textOf?)

section Entries

variable {es : Entries} {k key : String} {t : Toml}

@[simp] theorem Entries.get?_nil (k : String) : Entries.get? k [] = none :=
  rfl

theorem Entries.get?_cons (k : String) (e : String × Toml) (es : Entries) :
    Entries.get? k (e :: es) = if k = e.1 then some e.2 else es.get? k := by
  rw [get?, List.find?_cons]
  by_cases h : k = e.1
  · rw [if_pos h, h, beq_self_eq_true]
    rfl
  · rw [if_neg h, beq_eq_false_iff_ne.mpr (Ne.symm h)]
    rfl

theorem Entries.get?_put (k key : String) (t : Toml) (es : Entries) :
    (es.put key t).get? k = if k = key then some t else es.get? k := by
  induction es with
  | nil => rw [put, get?_cons]
  | cons e es ih =>
    rw [put]
    by_cases he : e.1 = key
    · rw [if_pos he, get?_cons, get?_cons, he]
      split <;> rfl
    · rw [if_neg he, get?_cons, get?_cons, ih]
      by_cases hk : k = e.1
      · rw [if_pos hk, if_pos hk, if_neg (hk ▸ he)]
      · rw [if_neg hk, if_neg hk]

theorem Entries.get?_append_single (hnew : es.get? key = none) (k : String) (t : Toml) :
    Entries.get? k (es ++ [(key, t)]) = if k = key then some t else es.get? k := by
  induction es with
  | nil => rw [List.nil_append, get?_cons]
  | cons e es ih =>
    rw [get?_cons] at hnew
    have he : ¬ key = e.1 := fun he => by rw [if_pos he] at hnew; cases hnew
    rw [if_neg he] at hnew
    rw [List.cons_append, get?_cons, get?_cons, ih hnew]
    by_cases hk : k = e.1
    · rw [if_pos hk, if_pos hk, if_neg (hk ▸ Ne.symm he)]
    · rw [if_neg hk, if_neg hk]

end Entries

theorem splitKey?_concat (path : List String) (key : String) :
    splitKey? (path ++ [key]) = some (path, key) := by
  simp [splitKey?]

theorem exists_concat_of_splitKey? {parts path : List String} {key : String}
    (h : splitKey? parts = some (path, key)) : parts = path ++ [key] := by
  rw [splitKey?, Option.map_eq_some_iff] at h
  obtain ⟨last, hlast, heq⟩ := h
  obtain ⟨rfl, rfl⟩ := Prod.mk.inj heq
  obtain ⟨init, rfl⟩ := List.getLast?_eq_some_iff.mp hlast
  rw [List.dropLast_concat]

section Change

/-- The key is given the text, or something that is no text; it was new, or it was no text and
stays none. Nothing else is changed. -/
structure Sets (key : String) (text : Option String) (es es' : Entries) : Prop where
  self : ∃ t, es'.get? key = some t ∧ textOf? t = text
  other : ∀ k, k ≠ key → es'.get? k = es.get? k
  before : ∀ t, es.get? key = some t → textOf? t = none ∧ text = none

variable {es es' : Entries} {key : String} {t : Toml} {f : Entries → Option Entries}

theorem sets_append (hnew : es.get? key = none) (t : Toml) :
    Sets key (textOf? t) es (es ++ [(key, t)]) where
  self := ⟨t, by rw [Entries.get?_append_single hnew, if_pos rfl], rfl⟩
  other k hk := by rw [Entries.get?_append_single hnew, if_neg hk]
  before t ht := by
    rw [hnew] at ht
    cases ht

theorem sets_put {old : Toml} (hold : es.get? key = some old) (ho : textOf? old = none)
    (ht : textOf? t = none) : Sets key none es (es.put key t) where
  self := ⟨t, by rw [Entries.get?_put, if_pos rfl], ht⟩
  other k hk := by rw [Entries.get?_put, if_neg hk]
  before t ht := by
    rw [hold] at ht
    cases ht
    exact ⟨ho, rfl⟩

theorem sets_of_addDotted? {holds : Bool} {path : List String} {part : String}
    (h : addDotted? holds key t (part :: path) es = some es') : Sets part none es es' := by
  rw [addDotted?] at h
  split at h
  · next hnew =>
    obtain ⟨inner, -, rfl⟩ := Option.map_eq_some_iff.mp h
    exact sets_append hnew (.table .dotted inner)
  · next hold =>
    obtain ⟨inner, -, rfl⟩ := Option.map_eq_some_iff.mp h
    exact sets_put hold rfl rfl
  · next hold =>
    obtain ⟨inner, -, rfl⟩ := Option.map_eq_some_iff.mp h
    exact sets_put hold rfl rfl
  · next hold =>
    obtain ⟨items, -, rfl⟩ := Option.map_eq_some_iff.mp h
    exact sets_put hold rfl rfl
  · cases h

theorem sets_of_add? (h : addDotted? true key t [] es = some es') :
    Sets key (textOf? t) es es' := by
  rw [addDotted?, if_pos rfl, Entries.add?] at h
  split at h
  · cases h
  · next hnew =>
    cases h
    exact sets_append hnew t

theorem sets_of_under? {path : List String} {part : String}
    (h : under? f (part :: path) es = some es') : Sets part none es es' := by
  rw [under?] at h
  split at h
  · next hnew =>
    obtain ⟨inner, -, rfl⟩ := Option.map_eq_some_iff.mp h
    exact sets_append hnew (.table .implied inner)
  · cases h
  · next hold =>
    obtain ⟨inner, -, rfl⟩ := Option.map_eq_some_iff.mp h
    exact sets_put hold rfl rfl
  · next hold =>
    obtain ⟨items, -, rfl⟩ := Option.map_eq_some_iff.mp h
    exact sets_put hold rfl rfl
  · cases h

theorem sets_of_openTable? (h : openTable? key es = some es') : Sets key none es es' := by
  rw [openTable?] at h
  split at h
  · next hnew =>
    cases h
    exact sets_append hnew (.table .header [])
  · next hold =>
    cases h
    exact sets_put hold rfl rfl
  · cases h

theorem sets_of_openItem? (h : openItem? key es = some es') : Sets key none es es' := by
  rw [openItem?] at h
  split at h
  · next hnew =>
    cases h
    exact sets_append hnew (.tables [[]])
  · next hold =>
    cases h
    exact sets_put hold rfl rfl
  · cases h

end Change

theorem changeLast?_concat (f : Entries → Option Entries) (items : List Entries) (last : Entries) :
    changeLast? f (items ++ [last]) = (f last).map fun last => items ++ [last] := by
  induction items with
  | nil => rfl
  | cons item items ih =>
    have hne : items ++ [last] ≠ [] := by simp
    rw [List.cons_append, changeLast?, ih, Option.map_map]
    · rfl
    · exact hne

end Predication.Toml
