import Mathlib
import Predication.Proofs.Catalog.Growth

namespace Predication.Catalog

open Sql

def Reads {α : Type} (a : Act α) : Prop :=
  ∀ w, (a w).2 = w

section Reads

variable {α β : Type}

theorem reads_pure (a : α) : Reads (pure a : Act α) := fun _ => rfl

theorem reads_throw (f : Fault) : Reads (throw f : Act α) := fun _ => rfl

theorem reads_get : Reads (get : Act Work) := fun _ => rfl

theorem bind_of_reads {a : Act α} (h : Reads a) (f : α → Act β) (w : Work) :
    (a >>= f) w = match (a w).1 with
      | .ok x => f x w
      | .error e => (.error e, w) := by
  change ExceptT.bindCont f (a w).1 (a w).2 = _
  rw [h w]
  cases (a w).1 <;> rfl

theorem Reads.bind {a : Act α} (h : Reads a) {f : α → Act β} (hf : ∀ x, Reads (f x)) :
    Reads (a >>= f) := by
  intro w
  rw [bind_of_reads h]
  cases (a w).1 with
  | ok x => exact hf x w
  | error e => rfl

theorem Reads.mapM {f : α → Act β} (hf : ∀ x, Reads (f x)) (xs : List α) :
    Reads (xs.mapM f) := by
  induction xs with
  | nil =>
    rw [List.mapM_nil]
    exact reads_pure _
  | cons x xs ih =>
    rw [List.mapM_cons]
    exact (hf x).bind fun y => ih.bind fun ys => reads_pure _

theorem reads_ofAnswer (a : Answer α) : Reads (ofAnswer a) := by
  cases a with
  | ok x => exact reads_pure x
  | error f => exact reads_throw f

end Reads

theorem reads_storedOf (kind : ItemKind) (name : String) : Reads (storedOf kind name) := by
  refine reads_get.bind fun w => ?_
  split
  · exact reads_pure _
  · exact reads_throw _

theorem reads_complete (s : Schema) (t : Table) (id values : List Value) :
    Reads (complete s t id values) :=
  (reads_get.bind fun _ => reads_pure _).bind fun _ => reads_ofAnswer _

theorem reads_rowsOf (s : Schema) (t : Table) : Reads (rowsOf s t) := by
  refine (reads_storedOf .table t.name).bind fun rows => ?_
  refine Reads.mapM (fun row => ?_) rows
  exact (reads_complete s t row.1 row.2).bind fun values => reads_pure _

theorem grows_createTable {c c' : Catalog} {name made sql : String}
    (h : c.createTable made sql = .ok ((), c')) : Grows name c c' := by
  rw [createTable] at h
  split at h
  · cases h
    exact Grows.refl name c
  · split at h
    · cases h
    · cases h
      exact (Grows.add c (spares_table rfl)).trans (Grows.add _ (spares_automaticIndex rfl rfl))

theorem eq_or_add_of_createIndex {c c' : Catalog} {name table column sql : String}
    (h : c.createIndex name table column sql = .ok ((), c')) :
    c' = c ∨ ∃ entries, c' = c.add
      { kind := .index, name := name, table := table, sql := some sql,
        stored := some entries } := by
  rw [createIndex] at h
  split at h
  · cases h
  · next act ha =>
    simp only [Option.bind_eq_bind, Option.bind_eq_some_iff] at ha
    obtain ⟨s, -, t, -, -, -, ha⟩ := ha
    split at ha
    · cases ha
      cases h
      exact .inl rfl
    · simp only [Option.bind_eq_some_iff] at ha
      obtain ⟨i, -, -, -, ha⟩ := ha
      cases ha
      rw [bind_of_reads (reads_rowsOf s t)] at h
      cases hr : (rowsOf s t { catalog := c }).1 with
      | error e =>
        rw [hr] at h
        cases e <;> cases h
      | ok rows =>
        rw [hr] at h
        cases h
        exact .inr ⟨_, rfl⟩

theorem read?_indexDeclaration :
    ∃ d, Declaration.read? Layout.indexDeclaration = some (.index d) ∧
      d.table = Layout.definitionsName := by
  have ht : tokenize? Layout.indexDeclaration =
      some [.word "create", .word "index", .word "idx_symbols_thing", .word "on",
        .word "system_symbols", .mark "(", .word "thing", .mark ")"] := by cbv
  rw [Declaration.read?, ht]
  exact ⟨_, rfl, rfl⟩

theorem grows_createIndex {c c' : Catalog}
    (h : c.createIndex Layout.indexName Layout.definitionsName Layout.categoryColumn
      Layout.indexDeclaration = .ok ((), c')) : Grows Layout.metadataName c c' := by
  rcases eq_or_add_of_createIndex h with rfl | ⟨entries, rfl⟩
  · exact Grows.refl _ _
  · obtain ⟨d, hread, htable⟩ := read?_indexDeclaration
    refine Grows.add c (spares_index rfl hread ?_)
    rw [htable]
    decide

end Predication.Catalog
