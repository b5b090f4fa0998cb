import Predication.Proofs.Store.History

namespace Predication

inductive StoreCall where
  | upsert (d : Definition)
  | remove (name : String)
  | seed (ds : List Definition)

def Acceptable (ds : List Definition) : Prop :=
  ∀ d ∈ ds, d.name ≠ "" ∧ d.vector.isOk

instance (ds : List Definition) : Decidable (Acceptable ds) :=
  inferInstanceAs (Decidable (∀ d ∈ ds, d.name ≠ "" ∧ d.vector.isOk))

namespace StoreCall

def final : StoreCall → Database → Database
  | .upsert d, db => (Store.upsert d db).final db
  | .remove name, db => (Store.remove name db).final db
  | .seed ds, db => (Store.seed ds db).final db

def events : StoreCall → History
  | .upsert d => if d.name = "" then [] else [.wrote d]
  | .remove name => [.removed name]
  | .seed ds => if Acceptable ds then ds.map .wrote else []

def FindsRoom (c : StoreCall) (db : Database) : Prop :=
  ∀ t, db.definitions = some t → t.HasRoom (History.writes c.events)

end StoreCall

namespace Store

open Database (ofTables putRows)

def opened : Database :=
  (Schema.prepare Database.blank).final Database.blank

def runCalls (calls : List StoreCall) : Database :=
  calls.foldl (fun db c => c.final db) opened

/-- Every row that is written gets the number after the largest one. -/
def Numbered (calls : List StoreCall) : Prop :=
  ∀ before c, before ++ [c] <+: calls → c.FindsRoom (runCalls before)

structure Records (db : Database) (es : History) (numbered : Prop) : Prop where
  tables : ∃ m t, db = ofTables m t ∧ t.Lists es ∧ (numbered → t.listing = es.live)

theorem Records.imp {db : Database} {es : History} {p q : Prop} (h : Records db es p)
    (hq : q → p) : Records db es q := by
  obtain ⟨m, t, hdb, ht, ho⟩ := h.tables
  exact ⟨m, t, hdb, ht, fun hn => ho (hq hn)⟩

theorem opened_eq : opened = ofTables [(Schema.versionKey, "1")] { categoryIndex := true } := rfl

theorem records_opened : Records opened [] True :=
  ⟨_, _, opened_eq, DefinitionTable.lists_of_nil rfl rfl, fun _ => by
    simp [DefinitionTable.listing, DefinitionTable.ordered, History.live]⟩

theorem acceptable_iff (ds : List Definition) :
    Acceptable ds ↔ checkEmbeddings ds = .ok () ∧ ¬ ∃ d ∈ ds, d.name = "" := by
  rw [checkEmbeddings_eq_ok, Acceptable]
  constructor
  · intro h
    refine ⟨fun d hd => (isOk_vector_iff d).mp (h d hd).2, ?_⟩
    rintro ⟨d, hd, hn⟩
    exact (h d hd).1 hn
  · rintro ⟨hp, hn⟩ d hd
    exact ⟨fun h => hn ⟨d, hd, h⟩, (isOk_vector_iff d).mpr (hp d hd)⟩

theorem seed_of_acceptable {ds : List Definition} (h : Acceptable ds) (m : KeyMap String String)
    (t : DefinitionTable) :
    seed ds (ofTables m t) = ⟨.ok ds.length, [ofTables m (putRows t ds),
      ofTables (m.insert lastSeedKey (Text.natText ds.length)) (putRows t ds)]⟩ := by
  obtain ⟨hc, hn⟩ := (acceptable_iff ds).mp h
  rw [seed_ofTables m t hc, if_neg hn]

theorem seed_of_not_acceptable {ds : List Definition} (h : ¬ Acceptable ds)
    (m : KeyMap String String) (t : DefinitionTable) :
    ∃ reason, seed ds (ofTables m t) = ⟨.error reason, []⟩ := by
  cases hc : checkEmbeddings ds with
  | error e => exact ⟨e, seed_of_bad_embedding hc _⟩
  | ok u =>
    have hn : ∃ d ∈ ds, d.name = "" := by
      by_contra hn
      exact h ((acceptable_iff ds).mpr ⟨hc, hn⟩)
    exact ⟨_, (seed_ofTables m t hc).trans (if_pos hn)⟩

theorem records_final {db : Database} {es : History} {numbered : Prop}
    (h : Records db es numbered) (c : StoreCall) :
    Records (c.final db) (es ++ c.events) (numbered ∧ c.FindsRoom db) := by
  obtain ⟨m, t, rfl, ht, ho⟩ := h.tables
  cases c with
  | upsert d =>
    rw [StoreCall.final, upsert_ofTables]
    by_cases hd : d.name = ""
    · rw [if_pos hd, StoreCall.events, if_pos hd, List.append_nil]
      exact ⟨m, t, rfl, ht, fun hn => ho hn.1⟩
    · have he : (StoreCall.upsert d).events = [.wrote d] := if_neg hd
      rw [if_neg hd, StoreCall.FindsRoom, he]
      refine ⟨m, t.put d, rfl, ht.wrote d, fun hn => ?_⟩
      rw [DefinitionTable.listing_put (hn.2 t rfl), ho hn.1, History.live_wrote]
  | remove name =>
    rw [StoreCall.final, remove_ofTables, StoreCall.events]
    refine ⟨m, t.erase name, rfl, ht.removed name, fun hn => ?_⟩
    rw [DefinitionTable.listing_erase, ho hn.1, History.live_removed]
  | seed ds =>
    rw [StoreCall.final]
    by_cases ha : Acceptable ds
    · have he : (StoreCall.seed ds).events = ds.map .wrote := if_pos ha
      rw [seed_of_acceptable ha, StoreCall.FindsRoom, he, History.writes_map_wrote]
      refine ⟨_, putRows t ds, rfl, ht.wroteAll ds, fun hn => ?_⟩
      rw [Database.listing_putRows (hn.2 t rfl), ho hn.1, History.live_wroteAll]
    · obtain ⟨reason, hs⟩ := seed_of_not_acceptable ha m t
      rw [hs, StoreCall.events, if_neg ha, List.append_nil]
      exact ⟨m, t, rfl, ht, fun hn => ho hn.1⟩

theorem numbered_of_concat {calls : List StoreCall} {c : StoreCall}
    (h : Numbered (calls ++ [c])) : Numbered calls ∧ c.FindsRoom (runCalls calls) :=
  ⟨fun before a hp => h before a (hp.trans (List.prefix_append calls [c])),
    h calls c (List.prefix_refl _)⟩

theorem records_runCalls (calls : List StoreCall) :
    Records (runCalls calls) (calls.flatMap StoreCall.events) (Numbered calls) := by
  induction calls using List.reverseRecOn with
  | nil => exact records_opened.imp fun _ => trivial
  | append_singleton calls c ih =>
    rw [runCalls, List.foldl_concat, List.flatMap_append, List.flatMap_singleton]
    exact (records_final ih c).imp numbered_of_concat

structure Shows (db : Database) (es : History) (numbered : Prop) : Prop where
  all : ∃ l, (Store.all db).answer = .ok l ∧ es.Listed l
  ordered : numbered → (Store.all db).answer = .ok es.live
  distinct : es.live.Distinct
  lookup : ∀ name, (Store.lookup? name db).answer = .ok (es.standing? name)
  count : (Store.count db).answer = .ok es.live.length
  remove : ∀ name, (Store.remove name db).answer = .ok (decide (∃ d ∈ es.live, d.name = name)) ∧
    ∀ l : Listing, (Store.all db).answer = .ok l →
      (Store.all ((Store.remove name db).final db)).answer = .ok (l.erase name)
  upsert : ∀ d, d.name ≠ "" → (Store.upsert d db).answer = .ok ()
  upsert_blank : ∀ d, d.name = "" → (Store.upsert d db).answer = .error (.invalid .emptyName) ∧
    (Store.upsert d db).final db = db
  seed : ∀ ds, Acceptable ds → (Store.seed ds db).answer = .ok ds.length
  seed_unacceptable : ∀ ds, ¬ Acceptable ds →
    (∃ reason, (Store.seed ds db).answer = .error reason) ∧ (Store.seed ds db).final db = db

theorem all_ofTables (m : KeyMap String String) (t : DefinitionTable) :
    (Store.all (ofTables m t)).answer = .ok t.listing := rfl

theorem lookup?_ofTables (m : KeyMap String String) {t : DefinitionTable} (h : t.WellFormed)
    (name : String) : (Store.lookup? name (ofTables m t)).answer = .ok (t.listing.find? name) := by
  rw [← DefinitionTable.find?_listing h]
  rfl

theorem shows_of_records {db : Database} {es : History} {numbered : Prop}
    (h : Records db es numbered) : Shows db es numbered := by
  obtain ⟨m, t, rfl, ht, ho⟩ := h.tables
  have hdistinct := ht.wellFormed.distinct
  have hfind (name : String) : t.listing.find? name = es.live.find? name :=
    Listing.find?_of_perm ht.listed.perm hdistinct name
  have hfound (name : String) :
      (t.find? name).isSome = decide (∃ d ∈ es.live, d.name = name) := by
    rw [← Listing.isSome_find?, ← hfind, ← DefinitionTable.find?_listing ht.wellFormed,
      Option.isSome_map]
  constructor
  case all => exact ⟨t.listing, all_ofTables m t, ht.listed⟩
  case ordered => exact fun hn => (all_ofTables m t).trans (congrArg Except.ok (ho hn))
  case distinct => exact Listing.distinct_of_perm ht.listed.perm hdistinct
  case lookup =>
    intro name
    rw [lookup?_ofTables m ht.wellFormed, hfind, History.find?_live]
  case count =>
    have hlen : t.rows.length = es.live.length :=
      t.length_listing.symm.trans ht.listed.perm.length_eq
    exact congrArg Except.ok hlen
  case remove =>
    intro name
    rw [remove_ofTables, hfound]
    refine ⟨rfl, ?_⟩
    rintro l ⟨⟩
    exact congrArg Except.ok (t.listing_erase name)
  case upsert =>
    intro d hd
    rw [upsert_ofTables, if_neg hd]
  case upsert_blank =>
    intro d hd
    rw [upsert_ofTables, if_pos hd]
    exact ⟨rfl, rfl⟩
  case seed =>
    intro ds ha
    rw [seed_of_acceptable ha]
  case seed_unacceptable =>
    intro ds ha
    obtain ⟨reason, hs⟩ := seed_of_not_acceptable ha m t
    rw [hs]
    exact ⟨⟨reason, rfl⟩, rfl⟩

theorem shows_runCalls (calls : List StoreCall) :
    Shows (runCalls calls) (calls.flatMap StoreCall.events) (Numbered calls) :=
  shows_of_records (records_runCalls calls)

end Store

end Predication
