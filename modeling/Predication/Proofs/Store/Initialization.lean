import Predication.Database.Image
import Predication.Proofs.Store.Preparation
import Predication.Proofs.Text.Integer

namespace Predication

open Database (ofTables)

namespace DefinitionTable

def indexed (t : DefinitionTable) : DefinitionTable :=
  { t with categoryIndex := true }

theorem indexed_of_categoryIndex {t : DefinitionTable} (h : t.categoryIndex = true) :
    t.indexed = t := by
  rw [indexed, ← h]

end DefinitionTable

namespace Schema

/-- No version is recorded, or a number that is not greater than the supported one. -/
def Supports (entry : Option String) : Prop :=
  ∀ text, entry = some text →
    ∃ v, Text.Denotes text.toList v ∧ -0x8000000000000000 ≤ v ∧ v ≤ supported

theorem readInt64?_supported :
    Text.readInt64? (Text.intText supported).toList = some supported := by
  decide

theorem supports_supported : Supports (some (Text.intText supported)) := by
  intro text ht
  cases ht
  obtain ⟨hd, hmin, -⟩ := (Text.readInt64?_eq_some_iff _ _).mp readInt64?_supported
  exact ⟨supported, hd, hmin, le_refl _⟩

theorem supported_lt : supported < 0x8000000000000000 := by decide

section

variable (m : KeyMap String String) (tbl : DefinitionTable)

theorem version?_of_none (h : m.get? versionKey = none) : version? (ofTables m tbl) = .ok none := by
  have hget : (ofTables m tbl).getMetadata versionKey = .ok none := congrArg Except.ok h
  rw [version?, hget]

section

variable {m} {text : String} (h : m.get? versionKey = some text)
include h

theorem version?_of_read {v : Int} (hr : Text.readInt64? text.toList = some v) :
    version? (ofTables m tbl) = .ok (some v) := by
  have hget : (ofTables m tbl).getMetadata versionKey = .ok (some text) := congrArg Except.ok h
  simp only [version?, hget, hr]

theorem version?_of_unread (hr : Text.readInt64? text.toList = none) :
    version? (ofTables m tbl) = .error (.invalid (.badVersion text)) := by
  have hget : (ofTables m tbl).getMetadata versionKey = .ok (some text) := congrArg Except.ok h
  simp only [version?, hget, hr]

end

theorem prepare_eq :
    prepare (ofTables m tbl) = ⟨(recording (ofTables m tbl.indexed)).answer,
      [ofTables m tbl, ofTables m tbl, ofTables m tbl.indexed] ++
        (recording (ofTables m tbl.indexed)).commits⟩ := by
  have h₁ : (ofTables m tbl).createMetadata = .ok (ofTables m tbl) := rfl
  have h₂ : (ofTables m tbl).createDefinitions = .ok (ofTables m tbl) := rfl
  have h₃ : (ofTables m tbl).createCategoryIndex = .ok (ofTables m tbl.indexed) := rfl
  have hp : prepare (ofTables m tbl) = ⟨(recording (ofTables m tbl.indexed)).answer,
      [ofTables m tbl] ++ ([ofTables m tbl] ++ ([ofTables m tbl.indexed] ++
        (recording (ofTables m tbl.indexed)).commits))⟩ :=
    Script.bind_of_ok (Script.write_of_ok h₁) (Script.bind_of_ok (Script.write_of_ok h₂)
      (Script.bind_of_ok (Script.write_of_ok h₃) rfl))
  exact hp

variable {m}

theorem recording_of_checked {found : Option Int} (hv : version? (ofTables m tbl) = .ok found)
    (hc : checkVersion found (ofTables m tbl) = ⟨.ok (), []⟩) :
    recording (ofTables m tbl) =
      ⟨.ok (), [ofTables (m.insert versionKey (Text.intText supported)) tbl]⟩ := by
  have hq : Script.query version? (ofTables m tbl) = ⟨.ok found, []⟩ := by rw [Script.query, hv]
  have hrecord : prepare.record (ofTables m tbl) =
      ⟨.ok (), [ofTables (m.insert versionKey (Text.intText supported)) tbl]⟩ :=
    Script.keeping_of_ok (Script.write_of_ok (Database.setMetadata_ofTables m tbl _ _))
  exact Script.bind_of_ok hq (Script.bind_of_ok hc hrecord)

theorem recording_of_supports (h : Supports (m.get? versionKey)) :
    recording (ofTables m tbl) =
      ⟨.ok (), [ofTables (m.insert versionKey (Text.intText supported)) tbl]⟩ := by
  cases hm : m.get? versionKey with
  | none => exact recording_of_checked tbl (version?_of_none m tbl hm) rfl
  | some text =>
    obtain ⟨v, hd, hmin, hmax⟩ := h text hm
    have hread : Text.readInt64? text.toList = some v :=
      (Text.readInt64?_eq_some_iff _ v).mpr ⟨hd, hmin, lt_of_le_of_lt hmax supported_lt⟩
    refine recording_of_checked tbl (version?_of_read tbl hm hread) ?_
    rw [checkVersion, if_neg (not_lt.mpr hmax)]
    rfl

theorem recording_of_not_supports (h : ¬ Supports (m.get? versionKey)) :
    ∃ reason, recording (ofTables m tbl) = ⟨.error (.invalid reason), []⟩ := by
  cases hm : m.get? versionKey with
  | none =>
    rw [hm] at h
    exact absurd nofun h
  | some text =>
    cases hread : Text.readInt64? text.toList with
    | none =>
      exact ⟨_, Script.bind_of_error (by rw [Script.query, version?_of_unread tbl hm hread])⟩
    | some v =>
      obtain ⟨hd, hmin, -⟩ := (Text.readInt64?_eq_some_iff _ v).mp hread
      have hnew : supported < v := by
        by_contra hmax
        refine h fun text' ht => ⟨v, ?_, hmin, not_lt.mp hmax⟩
        cases hm.symm.trans ht
        exact hd
      exact ⟨_, recording_of_newer (version?_of_read tbl hm hread) hnew⟩

end

section

variable {m : KeyMap String String} (tbl : DefinitionTable)

theorem prepare_of_supports (h : Supports (m.get? versionKey)) :
    (prepare (ofTables m tbl)).answer = .ok () ∧ (prepare (ofTables m tbl)).final (ofTables m tbl) =
      ofTables (m.insert versionKey (Text.intText supported)) tbl.indexed := by
  rw [prepare_eq, recording_of_supports _ h]
  exact ⟨rfl, rfl⟩

theorem prepare_of_not_supports (h : ¬ Supports (m.get? versionKey)) :
    ∃ reason, (prepare (ofTables m tbl)).answer = .error (.invalid reason) ∧
      (prepare (ofTables m tbl)).final (ofTables m tbl) = ofTables m tbl.indexed ∧
      (prepare (ofTables m tbl.indexed)).answer = .error (.invalid reason) ∧
      (prepare (ofTables m tbl.indexed)).final (ofTables m tbl.indexed) =
        ofTables m tbl.indexed := by
  obtain ⟨reason, hr⟩ := recording_of_not_supports tbl.indexed h
  have hr' : recording (ofTables m tbl.indexed.indexed) = ⟨.error (.invalid reason), []⟩ := hr
  rw [prepare_eq, prepare_eq, hr, hr']
  exact ⟨reason, rfl, rfl, rfl, rfl⟩

end

theorem prepare_ofTables (m : KeyMap String String) {tbl : DefinitionTable}
    (hi : tbl.categoryIndex = true) :
    (∃ e, (prepare (ofTables m tbl)).answer = .error e ∧
      (prepare (ofTables m tbl)).final (ofTables m tbl) = ofTables m tbl) ∨
    (prepare (ofTables m tbl)).answer = .ok () ∧
      (prepare (ofTables m tbl)).final (ofTables m tbl) =
        ofTables (m.insert versionKey (Text.intText supported)) tbl := by
  have hindexed := DefinitionTable.indexed_of_categoryIndex hi
  by_cases h : Supports (m.get? versionKey)
  · have hp := prepare_of_supports tbl h
    rw [hindexed] at hp
    exact .inr hp
  · obtain ⟨reason, he, hfinal, -⟩ := prepare_of_not_supports tbl h
    rw [hindexed] at hfinal
    exact .inl ⟨_, he, hfinal⟩

structure Initialized (m : KeyMap String String) (tbl : DefinitionTable) (r : Run Unit) : Prop where
  ok_iff : r.answer = .ok () ↔ Supports (m.get? versionKey)
  version : r.answer = .ok () →
    (Store.schemaVersion (r.final (ofTables m tbl))).answer = .ok (some supported)
  tables : ∃ m', r.final (ofTables m tbl) = ofTables m' tbl.indexed ∧
    ∀ key, key ≠ versionKey → m'.get? key = m.get? key
  refused : r.answer ≠ .ok () → (∃ reason, r.answer = .error (.invalid reason)) ∧
    r.final (ofTables m tbl) = ofTables m tbl.indexed ∧
    (prepare (r.final (ofTables m tbl))).answer = r.answer ∧
    (prepare (r.final (ofTables m tbl))).final (r.final (ofTables m tbl)) =
      r.final (ofTables m tbl)

theorem version?_insert (m : KeyMap String String) (tbl : DefinitionTable) :
    version? (ofTables (m.insert versionKey (Text.intText supported)) tbl) =
      .ok (some supported) :=
  version?_of_read tbl (by rw [KeyMap.get?_insert, if_pos rfl]) readInt64?_supported

theorem initialized_prepare (m : KeyMap String String) (tbl : DefinitionTable) :
    Initialized m tbl (prepare (ofTables m tbl)) := by
  by_cases h : Supports (m.get? versionKey)
  · obtain ⟨hok, hfinal⟩ := prepare_of_supports tbl h
    constructor
    case ok_iff => exact iff_of_true hok h
    case version =>
      intro _
      rw [hfinal]
      exact version?_insert m tbl.indexed
    case tables =>
      refine ⟨_, hfinal, fun key hk => ?_⟩
      rw [KeyMap.get?_insert, if_neg hk]
    case refused => exact fun hr => absurd hok hr
  · obtain ⟨reason, herror, hfinal, hagain, hstays⟩ := prepare_of_not_supports tbl h
    have hne : (prepare (ofTables m tbl)).answer ≠ .ok () := by
      rw [herror]
      nofun
    constructor
    case ok_iff => exact iff_of_false hne h
    case version => exact fun hok => absurd hok hne
    case tables => exact ⟨m, hfinal, fun _ _ => rfl⟩
    case refused =>
      intro _
      rw [hfinal, hagain]
      exact ⟨⟨reason, herror⟩, rfl, herror.symm, hstays⟩

/-- A database of the layout of a store whose version is a text in the sense of the engine, but no
UTF-8. -/
def garbled : Catalog where
  items := [
    { kind := .table
      name := Layout.metadataName
      table := Layout.metadataName
      sql := some Layout.metadataDeclaration
      stored := some [([.integer 1], [.ofString versionKey, .text [0xff]])] },
    { kind := .index
      name := Catalog.automaticName Layout.metadataName 1
      table := Layout.metadataName
      stored := some [([.ofString versionKey], [.integer 1])] },
    { kind := .table
      name := Layout.definitionsName
      table := Layout.definitionsName
      sql := some Layout.definitionsDeclaration },
    { kind := .index
      name := Catalog.automaticName Layout.definitionsName 1
      table := Layout.definitionsName },
    { kind := .index
      name := Layout.indexName
      table := Layout.definitionsName
      sql := some Layout.indexDeclaration }]

set_option maxRecDepth 100000 in
theorem prepare_garbled : Image.isOwn garbled ∧ Layout.isComplete garbled ∧
    garbled.lookup? Layout.metadataName Layout.keyColumn versionKey
      [Catalog.column Layout.valueColumn] = some (some [.text [0xff]]) ∧
    (prepare (.ofCatalog garbled)).answer = .error .engine := by
  decide +kernel

structure Current (m : KeyMap String String) (tbl : DefinitionTable) : Prop where
  version : m.get? versionKey = some (Text.intText supported)
  index : tbl.categoryIndex = true

theorem final_checkVersion (found : Option Int) (db : Database) :
    (checkVersion found db).final db = db := by
  cases found with
  | none => rfl
  | some v =>
    rw [checkVersion]
    split <;> rfl

theorem current_of_record {db : Database} {m : KeyMap String String} {tbl : DefinitionTable}
    (hr : db.setMetadata versionKey (Text.intText supported) = .ok (ofTables m tbl)) :
    m.get? versionKey = some (Text.intText supported) ∧ db.foreign = none ∧
      db.definitions = some tbl := by
  obtain ⟨metadata, definitions, foreign⟩ := db
  cases foreign with
  | some c =>
    obtain ⟨c', -, hc⟩ := Database.changed_eq_ok hr
    cases hc
  | none =>
    cases metadata with
    | none => cases hr
    | some m₀ =>
      cases hr
      exact ⟨by rw [KeyMap.get?_insert, if_pos rfl], rfl, rfl⟩

theorem categoryIndex_of_create {db db' : Database} {tbl : DefinitionTable}
    (h : db.createCategoryIndex = .ok db') (hf : db'.foreign = none)
    (ht : db'.definitions = some tbl) : tbl.categoryIndex = true := by
  obtain ⟨metadata, definitions, foreign⟩ := db
  cases foreign with
  | some c =>
    obtain ⟨c', -, rfl⟩ := Database.changed_eq_ok h
    cases hf
  | none =>
    cases definitions with
    | none => cases h
    | some t =>
      cases h
      cases ht
      rfl

/-- Whatever was there before, a preparation that ends in own tables has left current ones. -/
theorem current_of_prepare {db : Database} {m : KeyMap String String} {tbl : DefinitionTable}
    (ha : (prepare db).answer = .ok ()) (hf : (prepare db).final db = ofTables m tbl) :
    Current m tbl := by
  obtain ⟨_, db₁, -, -, ha, hf₁⟩ := Script.bind_eq_ok ha
  obtain ⟨_, db₂, -, -, ha, hf₂⟩ := Script.bind_eq_ok ha
  obtain ⟨_, db₃, hcreate, rfl, ha, hf₃⟩ := Script.bind_eq_ok ha
  obtain ⟨found, db₄, -, rfl, ha, hf₄⟩ := Script.bind_eq_ok ha
  obtain ⟨_, db₅, -, rfl, ha, hf₅⟩ := Script.bind_eq_ok ha
  obtain ⟨hwrite, hf₆⟩ := Script.keeping_eq_ok ha
  have hfinal := (hf₁.trans (hf₂.trans (hf₃.trans (hf₄.trans (hf₅.trans hf₆))))).symm.trans hf
  have hrecord := Script.write_eq_ok hwrite
  rw [hfinal, final_checkVersion, Script.final_query] at hrecord
  obtain ⟨hversion, hforeign, hdefinitions⟩ := current_of_record hrecord
  exact ⟨hversion, categoryIndex_of_create (Script.write_eq_ok hcreate) hforeign hdefinitions⟩

end Schema

end Predication
