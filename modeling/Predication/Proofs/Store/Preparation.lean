import Predication.Proofs.Catalog.Creation
import Predication.Proofs.Store.Call

namespace Predication

namespace Database

inductive Extends (db db' : Database) : Prop
  | tables (own : db.foreign = none) (own' : db'.foreign = none)
      (metadata : ∀ m, db.metadata = some m → db'.metadata = some m)
      (definitions : ∀ t, db.definitions = some t → ∃ t', db'.definitions = some t' ∧
        t'.rows = t.rows ∧ (t.categoryIndex = true → t'.categoryIndex = true))
  | catalog (c c' : Catalog) (foreign : db.foreign = some c) (foreign' : db'.foreign = some c')
      (grows : c.Grows Layout.metadataName c')

variable {db db' db'' : Database}

theorem Extends.refl (db : Database) : db.Extends db := by
  cases hf : db.foreign with
  | none => exact .tables hf hf (fun m hm => hm) fun t ht => ⟨t, ht, rfl, id⟩
  | some c => exact .catalog c c hf hf (.refl _ c)

theorem Extends.trans (h : db.Extends db') (h' : db'.Extends db'') : db.Extends db'' := by
  cases h with
  | tables own own' metadata definitions =>
    cases h' with
    | tables own₂ own₃ metadata' definitions' =>
      refine .tables own own₃ (fun m hm => metadata' m (metadata m hm)) ?_
      intro t ht
      obtain ⟨t', ht', hrows, hindex⟩ := definitions t ht
      obtain ⟨t'', ht'', hrows', hindex'⟩ := definitions' t' ht'
      exact ⟨t'', ht'', hrows'.trans hrows, fun hi => hindex' (hindex hi)⟩
    | catalog c c' foreign foreign' grows =>
      rw [own'] at foreign
      cases foreign
  | catalog c c' foreign foreign' grows =>
    cases h' with
    | tables own₂ own₃ metadata' definitions' =>
      rw [foreign'] at own₂
      cases own₂
    | catalog c₂ c₃ foreign₂ foreign₃ grows' =>
      rw [foreign'] at foreign₂
      cases foreign₂
      exact .catalog c c₃ foreign foreign₃ (grows.trans grows')

structure Creates (f : Database → Except StoreError Database) : Prop where
  extends_of_ok : ∀ {db db'}, f db = .ok db' → db.Extends db'
  engine_of_error : ∀ {db e}, f db = .error e → e = .engine

theorem changed_eq_ok {o : Catalog.Outcome Unit} (h : changed o = .ok db') :
    ∃ c, o = .ok ((), c) ∧ db' = ofCatalog c := by
  cases o with
  | error r => cases h
  | ok out =>
    cases h
    exact ⟨out.2, rfl, rfl⟩

theorem changed_eq_error {o : Catalog.Outcome Unit} {e : StoreError} (h : changed o = .error e) :
    e = .engine := by
  cases o with
  | error r =>
    cases h
    rfl
  | ok out => cases h

theorem creates_of {f : Database → Except StoreError Database} {g : Catalog → Catalog.Outcome Unit}
    (hf : ∀ db c, db.foreign = some c → f db = changed (g c))
    (hg : ∀ c c', g c = .ok ((), c') → c.Grows Layout.metadataName c')
    (extends_of_ok : ∀ db db', db.foreign = none → f db = .ok db' → db.Extends db')
    (engine_of_error : ∀ db e, db.foreign = none → f db = .error e → e = .engine) :
    Creates f := by
  constructor
  case extends_of_ok =>
    intro db db' h
    cases hd : db.foreign with
    | none => exact extends_of_ok db db' hd h
    | some c =>
      rw [hf db c hd] at h
      obtain ⟨c', hc, rfl⟩ := changed_eq_ok h
      exact .catalog c c' hd rfl (hg c c' hc)
  case engine_of_error =>
    intro db e h
    cases hd : db.foreign with
    | none => exact engine_of_error db e hd h
    | some c =>
      rw [hf db c hd] at h
      exact changed_eq_error h

theorem creates_createMetadata : Creates createMetadata := by
  refine creates_of (fun db c hd => by rw [createMetadata, hd])
    (fun c c' => Catalog.grows_createTable) ?_ ?_
  · intro db db' hd h
    rw [createMetadata, hd] at h
    cases h
    refine .tables hd rfl ?_ fun t ht => ⟨t, ht, rfl, id⟩
    intro m hm
    rw [hm]
    rfl
  · intro db e hd h
    rw [createMetadata, hd] at h
    cases h

theorem creates_createDefinitions : Creates createDefinitions := by
  refine creates_of (fun db c hd => by rw [createDefinitions, hd])
    (fun c c' => Catalog.grows_createTable) ?_ ?_
  · intro db db' hd h
    rw [createDefinitions, hd] at h
    cases h
    refine .tables hd rfl (fun m hm => hm) ?_
    intro t ht
    refine ⟨t, ?_, rfl, id⟩
    rw [ht]
    rfl
  · intro db e hd h
    rw [createDefinitions, hd] at h
    cases h

theorem creates_createCategoryIndex : Creates createCategoryIndex := by
  refine creates_of (fun db c hd => by rw [createCategoryIndex, hd])
    (fun c c' => Catalog.grows_createIndex) ?_ ?_
  · intro db db' hd h
    rw [createCategoryIndex, hd, definitionTable] at h
    cases ht : db.definitions with
    | none =>
      rw [ht] at h
      cases h
    | some t =>
      rw [ht] at h
      cases h
      refine .tables hd rfl (fun m hm => hm) ?_
      intro t' ht'
      rw [ht] at ht'
      cases ht'
      exact ⟨_, rfl, rfl, fun _ => rfl⟩
  · intro db e hd h
    rw [createCategoryIndex, hd, definitionTable] at h
    cases ht : db.definitions with
    | none =>
      rw [ht] at h
      cases h
      rfl
    | some t =>
      rw [ht] at h
      cases h

def filled (db : Database) : Database :=
  { db with definitions := some { db.definitions.getD {} with categoryIndex := true } }

/-- The metadata of a catalog are in a table all of whose columns are stored. -/
def HasPlainMetadata (db : Database) : Prop :=
  ∀ c, db.foreign = some c → c.HasPlain Layout.metadataName

theorem Extends.getMetadata (h : db.Extends db') (hp : db.HasPlainMetadata) {key text : String}
    (hm : db.getMetadata key = .ok (some text)) :
    db'.getMetadata key = .error .engine ∨ db'.getMetadata key = .ok (some text) := by
  cases h with
  | tables own own' metadata definitions =>
    right
    rw [Database.getMetadata, own, metadataTable] at hm
    rw [Database.getMetadata, own', metadataTable]
    cases hmeta : db.metadata with
    | none =>
      rw [hmeta] at hm
      cases hm
    | some m =>
      rw [hmeta] at hm
      rw [metadata m hmeta]
      exact hm
  | catalog c c' foreign foreign' grows =>
    rw [Database.getMetadata, foreign] at hm
    rw [Database.getMetadata, foreign']
    dsimp only at hm ⊢
    cases he : Layout.entry? c key with
    | none =>
      rw [he] at hm
      cases hm
    | some entry =>
      rw [he] at hm
      cases hm
      rcases grows.entry? (hp c foreign) he with h' | h' <;> rw [h']
      · exact .inl rfl
      · exact .inr rfl

end Database

namespace Schema

structure Newer (db : Database) (found : Int) : Prop where
  version : version? db = .ok (some found)
  newer : supported < found
  plain : db.HasPlainMetadata

def IsSettled (db : Database) : Prop :=
  db.createMetadata = .ok db ∧ db.createDefinitions = .ok db ∧ db.createCategoryIndex = .ok db

def refusal (found : Int) : StoreError :=
  .invalid (.newerVersion found supported)

variable {db : Database} {found : Int}

theorem version?_of_extends (h : Newer db found) {db' : Database} (hd : db.Extends db') :
    version? db' = .error .engine ∨ version? db' = .ok (some found) := by
  have hv := h.version
  rw [version?] at hv
  split at hv
  · cases hv
  · cases hv
  · next text ht =>
    rcases hd.getMetadata h.plain ht with he | ht'
    · left
      rw [version?, he]
    · right
      rw [version?, ht']
      exact hv

def recording : Script Unit :=
  Script.query version? >>= fun v => checkVersion v >>= fun _ => prepare.record

theorem recording_of_newer (hv : version? db = .ok (some found)) (hn : supported < found) :
    recording db = ⟨.error (refusal found), []⟩ := by
  have hq : Script.query version? db = ⟨.ok (some found), []⟩ := by rw [Script.query, hv]
  have hc : checkVersion (some found) db = ⟨.error (refusal found), []⟩ := by
    rw [checkVersion, if_pos hn]
    rfl
  exact Script.bind_of_ok hq (Script.bind_of_error hc)

theorem recording_of_extends (h : Newer db found) {db' : Database} (hd : db.Extends db') :
    recording db' = ⟨.error .engine, []⟩ ∨ recording db' = ⟨.error (refusal found), []⟩ := by
  rcases version?_of_extends h hd with he | hv
  · left
    exact Script.bind_of_error (by rw [Script.query, he])
  · right
    exact recording_of_newer hv h.newer

/-- From every state that has all of `db` the script fails, and all it commits has that too. -/
def Refuses (db : Database) (found : Int) (s : Script Unit) : Prop :=
  ∀ db', db.Extends db' →
    ((s db').answer = .error .engine ∨ (s db').answer = .error (refusal found)) ∧
      ∀ db'' ∈ (s db').commits, db.Extends db''

theorem refuses_recording (h : Newer db found) : Refuses db found recording := by
  intro db' hd
  rcases recording_of_extends h hd with hs | hs <;> rw [hs]
  · exact ⟨.inl rfl, by simp⟩
  · exact ⟨.inr rfl, by simp⟩

theorem Refuses.write {s : Script Unit} (hs : Refuses db found s)
    {f : Database → Except StoreError Database} (hf : Database.Creates f) :
    Refuses db found (Script.write f >>= fun _ => s) := by
  intro db' hd
  cases h : f db' with
  | error e =>
    rw [Script.bind_of_error (Script.write_of_error h), hf.engine_of_error h]
    exact ⟨.inl rfl, by simp⟩
  | ok db₁ =>
    have hd₁ : db.Extends db₁ := hd.trans (hf.extends_of_ok h)
    obtain ⟨hanswer, hcommits⟩ := hs db₁ hd₁
    rw [Script.bind_of_ok (Script.write_of_ok h) rfl]
    exact ⟨hanswer, List.forall_mem_cons.mpr ⟨hd₁, hcommits⟩⟩

theorem refuses_prepare (h : Newer db found) : Refuses db found prepare :=
  (((refuses_recording h).write Database.creates_createCategoryIndex).write
    Database.creates_createDefinitions).write Database.creates_createMetadata

section

variable {db₁ db₂ db₃ : Database}

theorem prepare_of_created (h₁ : db.createMetadata = .ok db₁) (h₂ : db₁.createDefinitions = .ok db₂)
    (h₃ : db₂.createCategoryIndex = .ok db₃) {e : StoreError}
    (hr : recording db₃ = ⟨.error e, []⟩) :
    prepare db = ⟨.error e, [db₁, db₂, db₃]⟩ :=
  Script.bind_of_ok (Script.write_of_ok h₁) (Script.bind_of_ok (Script.write_of_ok h₂)
    (Script.bind_of_ok (Script.write_of_ok h₃) hr))

theorem of_write_refused {s : Script Unit} {f : Database → Except StoreError Database}
    (hf : Database.Creates f)
    (h : ((Script.write f >>= fun _ => s) db).answer = .error (refusal found)) :
    ∃ db', f db = .ok db' ∧ (s db').answer = .error (refusal found) := by
  cases hd : f db with
  | error e =>
    rw [Script.bind_of_error (Script.write_of_error hd), hf.engine_of_error hd] at h
    cases h
  | ok db' =>
    rw [Script.bind_of_ok (Script.write_of_ok hd) rfl] at h
    exact ⟨db', rfl, h⟩

theorem created_of_refused (h : (prepare db).answer = .error (refusal found)) :
    ∃ db₁ db₂ db₃, db.createMetadata = .ok db₁ ∧ db₁.createDefinitions = .ok db₂ ∧
      db₂.createCategoryIndex = .ok db₃ := by
  obtain ⟨db₁, h₁, h⟩ := of_write_refused Database.creates_createMetadata h
  obtain ⟨db₂, h₂, h⟩ := of_write_refused Database.creates_createDefinitions h
  obtain ⟨db₃, h₃, h⟩ := of_write_refused Database.creates_createCategoryIndex h
  exact ⟨db₁, db₂, db₃, h₁, h₂, h₃⟩

theorem created_of_tables (hv : version? db = .ok (some found)) (hf : db.foreign = none) :
    db.createMetadata = .ok db ∧
    db.createDefinitions = .ok { db with definitions := some (db.definitions.getD {}) } ∧
    { db with definitions := some (db.definitions.getD {}) }.createCategoryIndex =
      .ok db.filled := by
  obtain ⟨metadata, definitions, foreign⟩ := db
  cases hf
  cases metadata with
  | none => cases hv
  | some m => exact ⟨rfl, rfl, rfl⟩

theorem isSettled_of_created (hv : version? db = .ok (some found))
    (h₁ : db.createMetadata = .ok db₁) (h₂ : db₁.createDefinitions = .ok db₂)
    (h₃ : db₂.createCategoryIndex = .ok db) : IsSettled db := by
  cases hf : db.foreign with
  | none =>
    obtain ⟨h₁', h₂', h₃'⟩ := created_of_tables hv hf
    cases h₁.symm.trans h₁'
    cases h₂.symm.trans h₂'
    have hd : db.definitions = some { db.definitions.getD {} with categoryIndex := true } :=
      congrArg Database.definitions (Except.ok.inj (h₃.symm.trans h₃'))
    have he : { db with definitions := some (db.definitions.getD {}) } = db := by
      obtain ⟨metadata, definitions, foreign⟩ := db
      cases definitions with
      | none => cases hd
      | some t => rfl
    rw [he] at h₂ h₃
    exact ⟨h₁, h₂, h₃⟩
  | some c =>
    rw [Database.createMetadata, hf] at h₁
    obtain ⟨c₁, hc₁, rfl⟩ := Database.changed_eq_ok h₁
    obtain ⟨c₂, hc₂, rfl⟩ := Database.changed_eq_ok h₂
    obtain ⟨c₃, hc₃, rfl⟩ := Database.changed_eq_ok h₃
    cases hf
    have hg₁ : c.Grows Layout.metadataName c₁ := Catalog.grows_createTable hc₁
    have hg₂ : c₁.Grows Layout.metadataName c₂ := Catalog.grows_createTable hc₂
    have hg₃ : c₂.Grows Layout.metadataName c := Catalog.grows_createIndex hc₃
    have he₁ : c₁ = c := (hg₂.trans hg₃).antisymm hg₁
    have he₂ : c₂ = c := hg₃.antisymm (hg₁.trans hg₂)
    subst he₁
    subst he₂
    exact ⟨h₁, h₂, h₃⟩

end

structure Refused (db : Database) (found : Int) : Prop where
  answer : (prepare db).answer = .error .engine ∨ (prepare db).answer = .error (refusal found)
  kept : ∀ db' ∈ (prepare db).commits, db.Extends db'
  version : ∀ db' ∈ (prepare db).commits,
    version? db' = .error .engine ∨ version? db' = .ok (some found)
  tables : db.foreign = none → (prepare db).answer = .error (refusal found) ∧
    (prepare db).final db = db.filled
  alone_iff : (prepare db).answer = .error (refusal found) ∧ (prepare db).final db = db ↔
    IsSettled db

theorem refused_of_newer (h : Newer db found) : Refused db found := by
  obtain ⟨hanswer, hkept⟩ := refuses_prepare h db (.refl db)
  constructor
  case answer => exact hanswer
  case kept => exact hkept
  case version =>
    intro db' hd
    exact version?_of_extends h (hkept db' hd)
  case tables =>
    intro hf
    obtain ⟨h₁, h₂, h₃⟩ := created_of_tables h.version hf
    have hv : version? db.filled = .ok (some found) := h.version
    rw [prepare_of_created h₁ h₂ h₃ (recording_of_newer hv h.newer)]
    exact ⟨rfl, rfl⟩
  case alone_iff =>
    constructor
    · rintro ⟨hr, hfinal⟩
      obtain ⟨db₁, db₂, db₃, h₁, h₂, h₃⟩ := created_of_refused hr
      have hd₃ : db.Extends db₃ :=
        ((Database.creates_createMetadata.extends_of_ok h₁).trans
          (Database.creates_createDefinitions.extends_of_ok h₂)).trans
            (Database.creates_createCategoryIndex.extends_of_ok h₃)
      have he : db₃ = db := by
        rcases recording_of_extends h hd₃ with hs | hs <;>
          rw [prepare_of_created h₁ h₂ h₃ hs] at hfinal <;> exact hfinal
      rw [he] at h₃
      exact isSettled_of_created h.version h₁ h₂ h₃
    · rintro ⟨h₁, h₂, h₃⟩
      rw [prepare_of_created h₁ h₂ h₃ (recording_of_newer h.version h.newer)]
      exact ⟨rfl, rfl⟩

theorem refused_metadata_alone :
    Newer { metadata := some [(versionKey, "2")] } 2 ∧
      Refused { metadata := some [(versionKey, "2")] } 2 := by
  have h : Newer { metadata := some [(versionKey, "2")] } 2 := by
    constructor
    case version => rfl
    case newer => decide
    case plain =>
      intro c hc
      cases hc
  exact ⟨h, refused_of_newer h⟩

theorem refused_not_left_alone :
    ¬ ∀ db found, version? db = .ok (some found) → supported < found →
      (prepare db).answer = .error (refusal found) ∧ (prepare db).final db = db := by
  intro h
  have hv : version? { metadata := some [(versionKey, "2")] } = .ok (some 2) := rfl
  obtain ⟨-, hfinal⟩ := h _ 2 hv (by decide)
  have hd := congrArg Database.definitions hfinal
  cases hd

end Schema

end Predication
