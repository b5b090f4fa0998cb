import Mathlib.Data.List.Basic
import Predication.Catalog.Access
import Predication.Database.Layout

namespace Predication

open Sql

namespace Catalog

theorem answer?_eq_some {α : Type} {a : Answer α} {x : α} (h : answer? a = some x) :
    a = .ok x := by
  cases a with
  | ok y => exact congrArg _ (Option.some.inj h)
  | error e => cases h

def unordered? (c : Catalog) (order : List Expr) (simple : Core) : Option (List Result) := do
  let s ← c.schema?
  answer? (core ⟨c, s⟩ (depth - 1) [] order simple)

theorem query_of_core {c : Context} {fuel : Nat} {s : Scope} {simple : Core}
    {order : List (Expr × Bool)} {found : List Result}
    (h : core c fuel s (order.map Prod.fst) simple = .ok found) :
    ∃ sorted : List Result, sorted.Perm found ∧
      query c (fuel + 1) s (.mk simple [] order none none) = .ok (sorted.map Result.values) := by
  refine ⟨if order.isEmpty then found else
    sortedResults (order.map fun x => (collationOf ((coreScope? c fuel s simple).getD s) x.1, x.2))
      found, ?_, ?_⟩
  · split
    · exact .refl found
    · exact List.mergeSort_perm found _
  · rw [query]
    simp only [List.isEmpty_nil, if_true, h]
    rfl

/-- A query without bounds gives what its core finds, in some order. -/
theorem perm_of_select? {c : Catalog} {simple : Core} {order : List (Expr × Bool)}
    {found : List Result} {rows : List (List Value)}
    (hr : c.select? (.mk simple [] order none none) = some rows)
    (hf : c.unordered? (order.map Prod.fst) simple = some found) :
    rows.Perm (found.map Result.values) := by
  obtain ⟨s, hs, hf⟩ := Option.bind_eq_some_iff.mp hf
  -- Sorting does not compute, but whatever order it gives, the rows are those of the core.
  obtain ⟨sorted, hperm, hq⟩ := query_of_core (answer?_eq_some hf)
  obtain ⟨s', hs', hr⟩ := Option.bind_eq_some_iff.mp hr
  obtain ⟨-, -, hr⟩ := Option.bind_eq_some_iff.mp hr
  rw [hs] at hs'
  cases hs'
  have hsorted : rows = sorted.map Result.values :=
    Except.ok.inj ((answer?_eq_some hr).symm.trans hq)
  rw [hsorted]
  exact hperm.map Result.values

theorem mapM_eq_none_of_mem {α β : Type} {f : α → Option β} {a : α} {as : List α} (ha : a ∈ as)
    (h : f a = none) : as.mapM f = none := by
  induction as with
  | nil => cases ha
  | cons b as ih =>
    rw [List.mapM_cons]
    rcases List.mem_cons.mp ha with rfl | ha
    · rw [h]
      rfl
    · rw [ih ha]
      cases f b <;> rfl

end Catalog

namespace Layout

def unordered? (c : Catalog) : Option (List Catalog.Result) :=
  c.unordered? [Catalog.column "rowid"] (.select false (shown.map fun e => .expr e none)
    [.table definitionsName none .inner none] none [] none)

def hasOther (c : Catalog) : Bool :=
  (unordered? c).any fun found => found.any fun r => (texts? r.values).isNone

theorem listed?_of_hasOther {c : Catalog} (h : hasOther c) : listed? c = none := by
  obtain ⟨found, hfound, h⟩ := (Option.any_eq_true _ _).mp h
  obtain ⟨r, hr, ht⟩ := List.any_eq_true.mp h
  have hrows : ∀ rows, c.select? (Catalog.selection shown definitionsName none
      [(Catalog.column "rowid", false)]) = some rows → rows.mapM texts? = none := by
    intro rows hrows
    have hperm := Catalog.perm_of_select? hrows hfound
    exact Catalog.mapM_eq_none_of_mem (hperm.mem_iff.mpr (List.mem_map_of_mem hr))
      (Option.isNone_iff_eq_none.mp ht)
  rw [listed?, Option.bind_eq_bind, Option.bind_eq_none_iff]
  exact hrows

end Layout

end Predication
