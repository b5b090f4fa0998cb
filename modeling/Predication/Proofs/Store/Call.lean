import Predication.Proofs.Store.Table
import Predication.Store

namespace Predication

namespace Database

def ofTables (m : KeyMap String String) (t : DefinitionTable) : Database :=
  { metadata := some m, definitions := some t }

def putRows (t : DefinitionTable) (ds : List Definition) : DefinitionTable :=
  ds.foldl DefinitionTable.put t

theorem putRows_append (t : DefinitionTable) (xs ys : List Definition) :
    putRows (putRows t xs) ys = putRows t (xs ++ ys) :=
  List.foldl_append.symm

theorem wellFormed_putRows {t : DefinitionTable} (h : t.WellFormed) (ds : List Definition) :
    (putRows t ds).WellFormed := by
  induction ds generalizing t with
  | nil => exact h
  | cons d ds ih => exact ih (DefinitionTable.wellFormed_put h d)

theorem categoryIndex_putRows (ds : List Definition) (t : DefinitionTable) :
    (putRows t ds).categoryIndex = t.categoryIndex := by
  induction ds generalizing t with
  | nil => rfl
  | cons d ds ih => exact ih (t.put d)

theorem perm_listing_putRows (ds : List Definition) (t : DefinitionTable) :
    (putRows t ds).listing.Perm (ds.foldl Listing.write t.listing) := by
  induction ds generalizing t with
  | nil => exact .refl _
  | cons d ds ih => exact (ih (t.put d)).trans (Listing.perm_foldl_write (t.perm_listing_put d) ds)

theorem hasRoom_putRows {t : DefinitionTable} {ds : List Definition} {n : Nat}
    (h : t.HasRoom (ds.length + n)) : (putRows t ds).HasRoom n := by
  induction ds generalizing t with
  | nil => exact Nat.zero_add n ▸ h
  | cons d ds ih =>
    rw [List.length_cons, Nat.add_right_comm] at h
    exact ih (h.put d)

theorem listing_putRows {t : DefinitionTable} {ds : List Definition} (h : t.HasRoom ds.length) :
    (putRows t ds).listing = ds.foldl Listing.write t.listing := by
  induction ds generalizing t with
  | nil => rfl
  | cons d ds ih =>
    rw [List.length_cons] at h
    rw [List.foldl_cons, ← DefinitionTable.listing_put (h.of_le (Nat.le_add_left 1 _)) d]
    exact ih (h.put d)

variable (m : KeyMap String String) (t : DefinitionTable)

theorem put_ofTables (d : Definition) :
    (ofTables m t).put d =
      if d.name = "" then .error (.invalid .emptyName) else .ok (ofTables m (t.put d)) := by
  simp only [put, String.isEmpty_iff]
  rfl

theorem putAll_ofTables (ds : List Definition) :
    (ofTables m t).putAll ds =
      if ∃ d ∈ ds, d.name = "" then .error (.invalid .emptyName)
      else .ok (ofTables m (putRows t ds)) := by
  rw [putAll_eq_putEach _ _ rfl]
  induction ds generalizing t with
  | nil => simp [putEach, putRows]
  | cons d ds ih =>
    rw [putEach, put_ofTables]
    by_cases hd : d.name = ""
    · simp [hd]
    · simp only [hd, if_false, ih, List.exists_mem_cons_iff, false_or]
      rfl

theorem delete_ofTables (name : String) :
    (ofTables m t).delete name = .ok ((t.find? name).isSome, ofTables m (t.erase name)) := rfl

theorem setMetadata_ofTables (key value : String) :
    (ofTables m t).setMetadata key value = .ok (ofTables (m.insert key value) t) := rfl

end Database

namespace Script

theorem commit_of_ok {α : Type} {f : Database → Except StoreError (α × Database)}
    {db db' : Database} {a : α} (h : f db = .ok (a, db')) : commit f db = ⟨.ok a, [db']⟩ := by
  rw [commit, h]

theorem write_of_ok {f : Database → Except StoreError Database} {db db' : Database}
    (h : f db = .ok db') : write f db = ⟨.ok (), [db']⟩ :=
  commit_of_ok (by rw [h]; rfl)

theorem write_of_error {f : Database → Except StoreError Database} {db : Database} {e : StoreError}
    (h : f db = .error e) : write f db = ⟨.error e, []⟩ := by
  rw [write, commit, h]
  rfl

theorem keeping_of_ok {α : Type} {kept : Database → Option Database} {s : Script α} {db : Database}
    {a : α} {commits : List Database} (h : s db = ⟨.ok a, commits⟩) :
    keeping kept s db = ⟨.ok a, commits⟩ := by
  simp [keeping, h]

theorem keeping_of_error {α : Type} {kept : Database → Option Database} {s : Script α}
    {db : Database} {e : StoreError} (h : s db = ⟨.error e, []⟩) (hk : kept db = none) :
    keeping kept s db = ⟨.error e, []⟩ := by
  simp [keeping, h, hk]

theorem bind_of_ok {α β : Type} {s : Script α} {f : α → Script β} {db : Database} {a : α}
    {commits more : List Database} {answer : Except StoreError β} (h : s db = ⟨.ok a, commits⟩)
    (hf : f a (commits.getLastD db) = ⟨answer, more⟩) :
    (s >>= f) db = ⟨answer, commits ++ more⟩ := by
  simp only [bind, andThen, h, Run.final, hf]

theorem bind_of_error {α β : Type} {s : Script α} {f : α → Script β} {db : Database}
    {e : StoreError} {commits : List Database} (h : s db = ⟨.error e, commits⟩) :
    (s >>= f) db = ⟨.error e, commits⟩ := by
  simp [bind, andThen, h]

theorem bind_eq_ok {α β : Type} {s : Script α} {f : α → Script β} {db : Database} {b : β}
    (h : ((s >>= f) db).answer = .ok b) :
    ∃ a db', (s db).answer = .ok a ∧ (s db).final db = db' ∧ (f a db').answer = .ok b ∧
      ((s >>= f) db).final db = (f a db').final db' := by
  cases hs : s db with
  | mk answer commits =>
    cases answer with
    | error e =>
      rw [bind_of_error hs] at h
      cases h
    | ok a =>
      have hb : (s >>= f) db = ⟨(f a (commits.getLastD db)).answer,
        commits ++ (f a (commits.getLastD db)).commits⟩ := bind_of_ok hs rfl
      rw [hb] at h ⊢
      refine ⟨a, _, rfl, rfl, h, ?_⟩
      simp [Run.final, List.getLastD_eq_getLast?, List.getLast?_append, Option.getD_or]

theorem write_eq_ok {f : Database → Except StoreError Database} {db : Database} {u : Unit}
    (h : (write f db).answer = .ok u) : f db = .ok ((write f db).final db) := by
  cases hf : f db with
  | error e =>
    rw [write_of_error hf] at h
    cases h
  | ok db' =>
    rw [write_of_ok hf]
    rfl

theorem keeping_eq_ok {α : Type} {kept : Database → Option Database} {s : Script α} {db : Database}
    {a : α} (h : (keeping kept s db).answer = .ok a) :
    (s db).answer = .ok a ∧ (keeping kept s db).final db = (s db).final db := by
  cases hs : s db with
  | mk answer commits =>
    cases answer with
    | error e => simp [keeping, hs] at h
    | ok b =>
      rw [keeping_of_ok hs] at h ⊢
      exact ⟨h, rfl⟩

end Script

namespace Store

open Database (ofTables putRows)

variable (m : KeyMap String String) (t : DefinitionTable)

theorem upsert_ofTables (d : Definition) :
    upsert d (ofTables m t) =
      if d.name = "" then ⟨.error (.invalid .emptyName), []⟩
      else ⟨.ok (), [ofTables m (t.put d)]⟩ := by
  have hp := Database.put_ofTables m t d
  split at hp
  · next hd =>
    rw [if_pos hd]
    refine Script.keeping_of_error (Script.write_of_error hp) ?_
    simp [Database.keptByPut, hd]
  · next hd =>
    rw [if_neg hd]
    exact Script.keeping_of_ok (Script.write_of_ok hp)

theorem remove_ofTables (name : String) :
    remove name (ofTables m t) = ⟨.ok (t.find? name).isSome, [ofTables m (t.erase name)]⟩ :=
  Script.keeping_of_ok (Script.commit_of_ok (Database.delete_ofTables m t name))

theorem getMetadata_ofTables (key : String) :
    (getMetadata key (ofTables m t)).answer = .ok (m.get? key) := rfl

theorem setMetadata_ofTables (key value : String) :
    setMetadata key value (ofTables m t) = ⟨.ok (), [ofTables (m.insert key value) t]⟩ :=
  Script.keeping_of_ok (Script.write_of_ok (Database.setMetadata_ofTables m t key value))

theorem checkEmbeddings_eq_ok (ds : List Definition) :
    checkEmbeddings ds = .ok () ↔ ∀ d ∈ ds, ∃ v, d.vector = .ok v := by
  induction ds with
  | nil => simp [checkEmbeddings]
  | cons d ds ih =>
    rw [checkEmbeddings, List.forall_mem_cons]
    cases d.vector with
    | error e => simp
    | ok v => simp [ih]

theorem isOk_vector_iff (d : Definition) : d.vector.isOk ↔ ∃ v, d.vector = .ok v := by
  cases d.vector <;> simp [Except.isOk, Except.toBool]

theorem seed_of_bad_embedding {ds : List Definition} {e : StoreError}
    (h : checkEmbeddings ds = .error e) (db : Database) : seed ds db = ⟨.error e, []⟩ :=
  Script.bind_of_error (by rw [Script.query, h])

theorem seed_ofTables {ds : List Definition} (h : checkEmbeddings ds = .ok ()) :
    seed ds (ofTables m t) =
      if ∃ d ∈ ds, d.name = "" then ⟨.error (.invalid .emptyName), []⟩
      else ⟨.ok ds.length, [ofTables m (putRows t ds),
        ofTables (m.insert lastSeedKey (Text.natText ds.length)) (putRows t ds)]⟩ := by
  have hq : Script.query (fun _ => checkEmbeddings ds) (ofTables m t) = ⟨.ok (), []⟩ := by
    rw [Script.query, h]
  have hp := Database.putAll_ofTables m t ds
  split at hp
  · next hd =>
    rw [if_pos hd]
    exact Script.bind_of_ok hq (Script.bind_of_error (Script.write_of_error hp))
  · next hd =>
    rw [if_neg hd]
    have hs := setMetadata_ofTables m (putRows t ds) lastSeedKey (Text.natText ds.length)
    exact Script.bind_of_ok hq (Script.bind_of_ok (Script.write_of_ok hp)
      (Script.bind_of_ok hs rfl))

end Store

end Predication
