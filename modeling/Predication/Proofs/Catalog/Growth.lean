import Mathlib.Data.Option.Basic
import Predication.Database

namespace Predication

open Sql

def Item.Spares (name : String) (i : Item) : Prop :=
  ∀ s s' t, Catalog.Schema.declare? s i = some s' → s.table? name = some t →
    s'.table? name = some t

namespace Catalog

def Grows (name : String) (c c' : Catalog) : Prop :=
  ∃ added, (∀ i ∈ added, i.Spares name) ∧ c' = { c with items := c.items ++ added }

section Grows

variable {name : String} {c c' c'' : Catalog}

theorem Grows.refl (name : String) (c : Catalog) : Grows name c c :=
  ⟨[], by simp, by simp⟩

theorem Grows.trans (h : Grows name c c') (h' : Grows name c' c'') : Grows name c c'' := by
  obtain ⟨added, hspares, rfl⟩ := h
  obtain ⟨more, hmore, rfl⟩ := h'
  refine ⟨added ++ more, ?_, by simp⟩
  intro i hi
  rcases List.mem_append.mp hi with hi | hi
  · exact hspares i hi
  · exact hmore i hi

theorem Grows.antisymm (h : Grows name c c') (h' : Grows name c' c) : c = c' := by
  obtain ⟨added, -, rfl⟩ := h
  obtain ⟨more, -, he⟩ := h'
  have hl := congrArg (fun c => c.items.length) he
  have hnil : added = [] := by
    simp only [List.length_append] at hl
    exact List.eq_nil_of_length_eq_zero (by omega)
  rw [hnil, List.append_nil]

theorem Grows.add (c : Catalog) {i : Item} (h : i.Spares name) : Grows name c (c.add i) := by
  refine ⟨[i], ?_, rfl⟩
  intro j hj
  rw [List.mem_singleton.mp hj]
  exact h

theorem Grows.item? (h : Grows name c c') {kind : ItemKind} {n : String} {i : Item}
    (hi : c.item? kind n = some i) : c'.item? kind n = some i := by
  obtain ⟨added, -, rfl⟩ := h
  rw [Catalog.item?] at hi
  rw [Catalog.item?, List.find?_append, hi]
  rfl

theorem Grows.stored? (h : Grows name c c') {kind : ItemKind} {n : String} {rows : Stored}
    (hr : c.stored? kind n = some rows) : c'.stored? kind n = some rows := by
  rw [Catalog.stored?, Option.bind_eq_some_iff] at hr
  obtain ⟨i, hi, hrows⟩ := hr
  rw [Catalog.stored?, h.item? hi]
  exact hrows

theorem table?_of_foldlM {added : List Item} (h : ∀ i ∈ added, i.Spares name) {s s' : Schema}
    {t : Table} (hs : added.foldlM Schema.declare? s = some s') (ht : s.table? name = some t) :
    s'.table? name = some t := by
  induction added generalizing s with
  | nil =>
    cases hs
    exact ht
  | cons i added ih =>
    rw [List.foldlM_cons] at hs
    obtain ⟨s₁, hi, hrest⟩ := Option.bind_eq_some_iff.mp hs
    have ht₁ : s₁.table? name = some t := h i List.mem_cons_self s s₁ t hi ht
    exact ih (fun j hj => h j (List.mem_cons_of_mem i hj)) hrest ht₁

theorem Grows.table? (h : Grows name c c') {s s' : Schema} {t : Table} (hs : c.schema? = some s)
    (ht : s.table? name = some t) (hs' : c'.schema? = some s') : s'.table? name = some t := by
  obtain ⟨added, hspares, rfl⟩ := h
  rw [schema?, List.foldlM_append] at hs'
  rw [schema?] at hs
  rw [hs] at hs'
  exact table?_of_foldlM hspares hs' ht

end Grows

section Lookup

theorem completed_of_plain {t : Table} (h : t.hasGenerated = false) (context : Context)
    (id values : List Value) : completed context depth t id values = .ok values := by
  have hd : depth = 3999 + 1 := rfl
  rw [hd, completed, h]
  rfl

theorem eval_column (context context' : Context) (scope : Scope) (n : String) :
    eval context depth scope none (column n) = eval context' depth scope none (column n) := by
  have hd : depth = 3999 + 1 := rfl
  rw [hd, column, eval, eval]

theorem isResolved_column (context context' : Context) (scope : Scope) (n : String) :
    isResolved context depth scope (column n) = isResolved context' depth scope (column n) := by
  have hd : depth = 3999 + 1 := rfl
  rw [hd, column, isResolved, isResolved]

variable {name : String} {c c' : Catalog}

theorem Grows.found? (h : Grows name c c') {s s' : Schema} {t : Table} (ht : t.hasGenerated = false)
    {i : Nat} {key : Value} {rows : Stored} (hf : found? ⟨c, s⟩ t i key = some rows) :
    Catalog.found? ⟨c', s'⟩ t i key = some rows := by
  simp only [Catalog.found?, completed_of_plain ht, Option.bind_eq_bind,
    Option.bind_eq_some_iff] at hf ⊢
  obtain ⟨column, hcolumn, stored, hstored, hf⟩ := hf
  refine ⟨column, hcolumn, stored, h.stored? hstored, ?_⟩
  split at hf
  · next hn =>
    rw [if_pos hn]
    exact hf
  · next hn =>
    rw [if_neg hn]
    cases hx : t.indexFor? i with
    | none =>
      rw [hx] at hf
      exact hf
    | some x =>
      rw [hx] at hf
      dsimp only at hf ⊢
      split at hf
      · next hp =>
        rw [if_pos hp]
        exact hf
      · next hp =>
        rw [if_neg hp]
        rw [Option.bind_eq_some_iff] at hf ⊢
        obtain ⟨entries, hentries, hf⟩ := hf
        exact ⟨entries, h.stored? hentries, hf⟩

theorem Grows.lookup? (h : Grows name c c') {s s' : Schema} {t : Table} (hs : c.schema? = some s)
    (ht : s.table? name = some t) (hp : t.hasGenerated = false) (hs' : c'.schema? = some s')
    {key shown text : String} {r : Option (List Value)}
    (hl : c.lookup? name key text [column shown] = some r) :
    c'.lookup? name key text [column shown] = some r := by
  have ht' : s'.table? name = some t := h.table? hs ht hs'
  simp only [Catalog.lookup?, hs, hs', ht, ht', isResolved_column ⟨c', s'⟩ ⟨c, s⟩,
    eval_column ⟨c', s'⟩ ⟨c, s⟩, Option.bind_eq_bind, Option.bind_eq_some_iff, List.all_cons,
    List.all_nil, List.mapM_cons, List.mapM_nil, Option.some.injEq, exists_eq_left'] at hl ⊢
  obtain ⟨u, hguard, i, hi, rows, hf, hl⟩ := hl
  exact ⟨u, hguard, i, hi, rows, h.found? hp hf, hl⟩

def HasPlain (c : Catalog) (name : String) : Prop :=
  ∃ s t, c.schema? = some s ∧ s.table? name = some t ∧ t.hasGenerated = false

theorem Grows.entry? (h : Grows Layout.metadataName c c') (hp : c.HasPlain Layout.metadataName)
    {key : String} {text : Option String} (he : Layout.entry? c key = some text) :
    Layout.entry? c' key = none ∨ Layout.entry? c' key = some text := by
  obtain ⟨s, t, hs, ht, hplain⟩ := hp
  simp only [Layout.entry?, Option.bind_eq_bind] at he ⊢
  cases hs' : c'.schema? with
  | none =>
    left
    have hl : c'.lookup? Layout.metadataName Layout.keyColumn key [column Layout.valueColumn] =
        none := by
      rw [Catalog.lookup?, hs']
      rfl
    rw [hl]
    rfl
  | some s' =>
    right
    obtain ⟨found, hl, he⟩ := Option.bind_eq_some_iff.mp he
    rw [h.lookup? hs ht hplain hs' hl]
    exact he

end Lookup

section Spares

variable {name : String}

theorem table?_append {s : Schema} {t u : Table} (ht : s.table? name = some t) :
    { s with tables := s.tables ++ [u] }.table? name = some t := by
  rw [Schema.table?] at ht
  rw [Schema.table?, List.find?_append, ht]
  rfl

theorem table?_putTable {s : Schema} {t u : Table} (hu : u.name ≠ name)
    (ht : s.table? name = some t) : (s.putTable u).table? name = some t := by
  rw [Schema.table?] at ht
  obtain ⟨hname, before, after, hs, hbefore⟩ := List.find?_eq_some_iff_append.mp ht
  have hself : (if t.name = u.name then u else t) = t := by
    rw [if_neg]
    intro he
    exact hu (he.symm.trans (beq_iff_eq.mp hname))
  have hskip : ∀ v ∈ before.map fun v => if v.name = u.name then u else v,
      (!(v.name == name)) = true := by
    intro v hv
    obtain ⟨w, hw, rfl⟩ := List.mem_map.mp hv
    by_cases he : w.name = u.name
    · rw [if_pos he]
      simpa using hu
    · rw [if_neg he]
      exact hbefore w hw
  rw [Schema.table?, Schema.putTable, hs, List.map_append, List.map_cons, hself]
  exact List.find?_eq_some_iff_append.mpr ⟨hname, _, _, rfl, hskip⟩

theorem spares_table {i : Item} (h : i.kind = .table) : i.Spares name := by
  intro s s' t hd ht
  rw [Schema.declare?, h] at hd
  cases hr : i.sql.map Declaration.read? with
  | none =>
    rw [hr] at hd
    cases hd
  | some found =>
    rw [hr] at hd
    match found with
    | none => cases hd
    | some (.table d) =>
      dsimp only at hd
      split at hd
      · cases hd
      · obtain ⟨u, -, rfl⟩ := Option.map_eq_some_iff.mp hd
        exact table?_append ht
    | some (.module n) =>
      cases hd
      exact ht
    | some (.index d) => cases hd
    | some (.view d) => cases hd
    | some (.trigger d) => cases hd

theorem spares_automaticIndex {i : Item} (h : i.kind = .index) (hsql : i.sql = none) :
    i.Spares name := by
  intro s s' t hd ht
  rw [Schema.declare?, h, hsql] at hd
  obtain ⟨x, -, rfl⟩ := Option.map_eq_some_iff.mp hd
  exact ht

theorem table?_addIndex? {s s' : Schema} {d : IndexDeclaration} {t : Table} (hd : d.table ≠ name)
    (hs : s.addIndex? d = some s') (ht : s.table? name = some t) : s'.table? name = some t := by
  simp only [Schema.addIndex?, bind, Option.bind_eq_some_iff] at hs
  obtain ⟨-, -, u, hu, parts, -, he⟩ := hs
  cases he
  have hname : u.name = d.table := by
    rw [Schema.table?] at hu
    have hb := List.find?_some hu
    exact beq_iff_eq.mp hb
  refine table?_putTable ?_ ht
  exact fun he => hd (hname.symm.trans he)

theorem spares_index {i : Item} {d : IndexDeclaration} (h : i.kind = .index)
    (hsql : i.sql.bind Declaration.read? = some (.index d)) (hd : d.table ≠ name) :
    i.Spares name := by
  intro s s' t hs ht
  obtain ⟨sql, hi, hread⟩ := Option.bind_eq_some_iff.mp hsql
  rw [Schema.declare?, h, hi, Option.map_some, hread] at hs
  exact table?_addIndex? hd hs ht

end Spares

end Catalog

end Predication
