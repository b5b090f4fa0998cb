import Predication.Command.Execution
import Predication.Proofs.Session.Reopening
import Predication.Proofs.Store.Initialization
import Predication.Proofs.Store.Refinement

namespace Predication

open Database (ofTables putRows)

namespace Schema

theorem keepsRefused_ofTables (m : KeyMap String String) {tbl : DefinitionTable}
    (hi : tbl.categoryIndex = true) : KeepsRefused (ofTables m tbl) := by
  intro e he
  rcases prepare_ofTables m hi with ⟨e', -, hf⟩ | ⟨ho, -⟩
  · exact hf
  · rw [ho] at he
    cases he

end Schema

theorem DefinitionTable.erase_of_find?_eq_none {tbl : DefinitionTable} {name : String}
    (h : tbl.find? name = none) : tbl.erase name = tbl := by
  have hrows : tbl.rows.filter (fun r => r.name != name) = tbl.rows := by
    rw [List.filter_eq_self]
    intro row hrow
    simpa using List.find?_eq_none.mp h row hrow
  rw [erase, hrows]

namespace Command

section

variable (names : List String) (journal : Journal) (log : Option Guard)

structure Ends (s : Session) (r : Report) (db : Database) (result : Report × Session) : Prop where
  report : result.1 = r
  holds : result.2.Holds names journal log db
  same : FileTree.SameDirectories s.tree result.2.tree

end

variable {names : List String} {journal : Journal} {log : Option Guard} {s : Session}
  {db db' : Database} {r : Report}

theorem ends_of_holds (h : s.Holds names journal log db) (r : Report) :
    Ends names journal log s r db (r, s) :=
  ⟨rfl, h, .refl s.tree⟩

section

variable {α : Type} {script : Script α} {commits : List Database}
  (context : StoreError → CommandError) {f : α → Session → Report × Session}
  (h : s.Holds names journal log db)
include h

theorem ends_reporting_of_error {e : StoreError} (hs : script db = ⟨.error e, commits⟩) :
    Ends names journal log s (.failure (context e)) (commits.getLastD db)
      (reporting s script context f) := by
  rw [reporting, h.run, hs]
  exact ⟨rfl, (h.store _).1, (h.store _).2.toSameDirectories⟩

theorem ends_reporting_of_ok {a : α} (hs : script db = ⟨.ok a, commits⟩)
    (hf : ∀ s : Session, s.Holds names journal log (commits.getLastD db) →
      Ends names journal log s r db' (f a s)) :
    Ends names journal log s r db' (reporting s script context f) := by
  rw [reporting, h.run, hs]
  have hstore := h.store (commits.getLastD db)
  have hends := hf _ hstore.1
  exact ⟨hends.report, hends.holds, hstore.2.toSameDirectories.trans hends.same⟩

end

def seedRows (files : FileTree) : Option String → Except StoreError (List Definition)
  | none => .ok []
  | some path => loadSeed files path

def batch (rows : List Definition) : List Definition :=
  Definition.wellKnown ++ rows

def shown (l : Listing) : List String :=
  "--- Data in system_symbols ---" :: l.map symbolLine

/-- All that a command can do with the tables of a store, in which `files` can be read. -/
inductive Effect (files : FileTree) (m : KeyMap String String) (tbl : DefinitionTable) :
    Command → Report → KeyMap String String → DefinitionTable → Prop
  | failed {c : Command} {e : CommandError} (other : ∀ name, c ≠ .lookup name)
      (well : ∀ name cause, e ≠ .malformed name cause) : Effect files m tbl c (.failure e) m tbl
  | symbols : Effect files m tbl .symbols (.ofLines (shown tbl.listing)) m tbl
  | stats {lines : List String} : Effect files m tbl .stats (.ofLines lines) m tbl
  | found {name : String} {d : Definition} {xs : Embedding}
      (there : tbl.listing.find? name = some d) (parses : d.vector = .ok xs) :
      Effect files m tbl (.lookup name)
        (.ofLines ["category: " ++ d.tag.raw, "embedding: " ++ xs.debug]) m tbl
  | missing {name : String} (gone : tbl.listing.find? name = none) :
      Effect files m tbl (.lookup name) (.failure (.notFound name)) m tbl
  | malformed {name : String} {d : Definition} {cause : EmbeddingError}
      (there : tbl.listing.find? name = some d) (bad : d.vector = .error cause) :
      Effect files m tbl (.lookup name) (.failure (.malformed name cause)) m tbl
  | removed {name : String} (there : (tbl.listing.find? name).isSome) :
      Effect files m tbl (.remove name) (.ofLines ["removed " ++ name]) m (tbl.erase name)
  | stored {d : Definition} (parses : d.vector.isOk) :
      Effect files m tbl (.upsert d) (.ofLines ["stored " ++ d.name]) m (tbl.put d)
  | seeded {seedFile : Option String} {rows : List Definition}
      (read : seedRows files seedFile = .ok rows) (acceptable : Acceptable (batch rows)) :
      Effect files m tbl (.setup seedFile)
        (.ofLines (shown (putRows tbl (batch rows)).listing))
        (m.insert Store.lastSeedKey (Text.natText (batch rows).length)) (putRows tbl (batch rows))

def Works (c : Command) (f : Session → Report × Session) : Prop :=
  ∀ (s : Session) (names : List String) (journal : Journal) (log : Option Guard)
    (m : KeyMap String String) (tbl : DefinitionTable),
    s.Holds names journal log (ofTables m tbl) → tbl.WellFormed →
      ∃ r m' tbl', Ends names journal log s r (ofTables m' tbl') (f s) ∧
        Effect s.tree m tbl c r m' tbl'

section

variable {m : KeyMap String String} {tbl : DefinitionTable}

theorem ends_showSymbols (h : s.Holds names journal log (ofTables m tbl)) :
    Ends names journal log s (.ofLines (shown tbl.listing)) (ofTables m tbl) (showSymbols s) :=
  ends_reporting_of_ok _ h (congrArg (Run.mk · []) (Store.all_ofTables m tbl))
    fun _ hs => ends_of_holds hs _

end

theorem works_showSymbols : Works .symbols showSymbols :=
  fun _ _ _ _ m tbl h _ => ⟨_, m, tbl, ends_showSymbols h, .symbols⟩

theorem works_runLookup (name : String) : Works (.lookup name) fun s => runLookup s name := by
  intro s names journal log m tbl h hw
  have hs : Store.lookup? name (ofTables m tbl) = ⟨.ok (tbl.listing.find? name), []⟩ :=
    congrArg (Run.mk · []) (Store.lookup?_ofTables m hw name)
  cases hf : tbl.listing.find? name with
  | none =>
    rw [hf] at hs
    exact ⟨_, m, tbl, ends_reporting_of_ok _ h hs fun _ hs => ends_of_holds hs _, .missing hf⟩
  | some d =>
    rw [hf] at hs
    cases hv : d.vector with
    | error cause =>
      refine ⟨_, m, tbl, ends_reporting_of_ok _ h hs fun s hs => ?_, .malformed hf hv⟩
      simp only [hv]
      exact ends_of_holds hs _
    | ok xs =>
      refine ⟨_, m, tbl, ends_reporting_of_ok _ h hs fun s hs => ?_, .found hf hv⟩
      simp only [hv]
      exact ends_of_holds hs _

theorem works_runStats (path : String) : Works .stats (runStats path) := by
  intro s names journal log m tbl h hw
  cases hv : (Store.schemaVersion (ofTables m tbl)).answer with
  | error e =>
    have hversion : Store.schemaVersion (ofTables m tbl) = ⟨.error e, []⟩ :=
      congrArg (Run.mk · []) hv
    exact ⟨.failure (.version e), m, tbl, ends_reporting_of_ok _ h rfl fun _ hs =>
      ends_reporting_of_error _ hs hversion, .failed nofun nofun⟩
  | ok version =>
    have hversion : Store.schemaVersion (ofTables m tbl) = ⟨.ok version, []⟩ :=
      congrArg (Run.mk · []) hv
    exact ⟨_, m, tbl, ends_reporting_of_ok _ h rfl fun _ hs =>
      ends_reporting_of_ok _ hs hversion fun _ hs =>
        ends_reporting_of_ok _ hs rfl fun _ hs => ends_of_holds hs _, .stats⟩

theorem works_runRemove (name : String) : Works (.remove name) fun s => runRemove s name := by
  intro s names journal log m tbl h hw
  have hs := Store.remove_ofTables m tbl name
  cases hf : tbl.find? name with
  | none =>
    rw [hf, DefinitionTable.erase_of_find?_eq_none hf] at hs
    exact ⟨_, m, tbl, ends_reporting_of_ok _ h hs fun s hs => ends_of_holds hs _,
      .failed nofun nofun⟩
  | some row =>
    rw [hf] at hs
    have there : (tbl.listing.find? name).isSome := by
      rw [← DefinitionTable.find?_listing hw, hf]
      rfl
    exact ⟨_, m, tbl.erase name, ends_reporting_of_ok _ h hs fun s hs => ends_of_holds hs _,
      .removed there⟩

theorem works_runUpsert {d : Definition} (hv : d.vector.isOk) :
    Works (.upsert d) fun s => runUpsert s d := by
  intro s names journal log m tbl h hw
  have hs := Store.upsert_ofTables m tbl d
  split at hs
  · exact ⟨_, m, tbl, ends_reporting_of_error _ h hs, .failed nofun nofun⟩
  · exact ⟨_, m, tbl.put d, ends_reporting_of_ok _ h hs fun s hs => ends_of_holds hs _,
      .stored hv⟩

theorem runSetup_of_error {seedFile : Option String} {e : StoreError}
    (h : seedRows s.tree seedFile = .error e) :
    runSetup s seedFile = (.failure (.loadSeed (seedFile.getD "") e), s) := by
  cases seedFile with
  | none => cases h
  | some path =>
    have hload : loadSeed s.tree path = .error e := h
    rw [runSetup, hload]
    rfl

theorem runSetup_of_ok {seedFile : Option String} {rows : List Definition}
    (h : seedRows s.tree seedFile = .ok rows) : runSetup s seedFile = setupWith s rows := by
  cases seedFile with
  | none =>
    cases h
    rfl
  | some path =>
    have hload : loadSeed s.tree path = .ok rows := h
    rw [runSetup, hload]

theorem works_runSetup (seedFile : Option String) :
    Works (.setup seedFile) fun s => runSetup s seedFile := by
  intro s names journal log m tbl h hw
  dsimp only
  cases hr : seedRows s.tree seedFile with
  | error e =>
    rw [runSetup_of_error hr]
    exact ⟨_, m, tbl, ends_of_holds h _, .failed nofun nofun⟩
  | ok rows =>
    rw [runSetup_of_ok hr]
    by_cases ha : Acceptable (batch rows)
    · have hs := Store.seed_of_acceptable ha m tbl
      exact ⟨_, _, putRows tbl (batch rows),
        ends_reporting_of_ok _ h hs fun s hs => ends_showSymbols hs, .seeded hr ha⟩
    · obtain ⟨reason, hs⟩ := Store.seed_of_not_acceptable ha m tbl
      exact ⟨_, m, tbl, ends_reporting_of_error _ h hs, .failed nofun nofun⟩

inductive Apart (t : FileTree) (showsWarnings : Bool) : Command → Report → Prop
  | refused {d : Definition} {e : EmbeddingError} (bad : d.vector = .error e) :
      Apart t showsWarnings (.upsert d) (.failure (.badEmbedding e))
  | expanded {file : String} {axis : ExpansionAxis} :
      Apart t showsWarnings (.expand file axis) (runExpand t file axis showsWarnings)
  | labelled {raw : String} {core : Bool} :
      Apart t showsWarnings (.verb raw core) (.ofLines [verbLabel raw core])

theorem run_cases (c : Command) (path : String) (showsWarnings : Bool) (t : FileTree) :
    (∃ f, Works c f ∧ c.run path showsWarnings t = withStore t path f) ∨
      ∃ r, Apart t showsWarnings c r ∧ c.run path showsWarnings t = (r, t) := by
  cases c with
  | setup seedFile => exact .inl ⟨_, works_runSetup seedFile, rfl⟩
  | symbols => exact .inl ⟨_, works_showSymbols, rfl⟩
  | lookup name => exact .inl ⟨_, works_runLookup name, rfl⟩
  | stats => exact .inl ⟨_, works_runStats path, rfl⟩
  | remove name => exact .inl ⟨_, works_runRemove name, rfl⟩
  | upsert d =>
    cases hv : d.vector with
    | error e => exact .inr ⟨_, .refused hv, by rw [Command.run, hv]⟩
    | ok xs => exact .inl ⟨_, works_runUpsert (by rw [hv]; rfl), by rw [Command.run, hv]⟩
  | expand file axis => exact .inr ⟨_, .expanded, rfl⟩
  | verb raw core => exact .inr ⟨_, .labelled, rfl⟩

section

variable {t t' : FileTree} {path : String} {f : Session → Report × Session}

theorem withStore_of_error {e : StoreError} (h : t.openStore path = .error (e, t')) :
    withStore t path f = (.failure (.openStore path e), t') := by
  rw [withStore, h]

theorem withStore_of_ok (h : t.openStore path = .ok s) :
    withStore t path f = ((f s).1, (f s).2.close) := by
  rw [withStore, h]

end

/-- All that a run of a command can come to in the file of a store, where there is a database when
the directories above it are made. A session that opens it holds the given tables at first. -/
inductive Outcome (c : Command) (path : String) (showsWarnings : Bool) (t : FileTree)
    (names : List String) (guard : Guard) (db : Database) (m : KeyMap String String)
    (tbl : DefinitionTable) : Report × FileTree → Prop
  | apart {r : Report} (apart : Apart t showsWarnings c r) :
      Outcome c path showsWarnings t names guard db m tbl (r, t)
  | unopened {e : StoreError} {t' : FileTree} (fails : t.openStore path = .error (e, t'))
      (same : FileTree.SameDirectories (t.makeAbove path).1 t')
      (kept : t'.database? names = some db)
      (logs : guard.admitsLog → (t.makeAbove path).1.LogsAt names → t'.LogsAt names) :
      Outcome c path showsWarnings t names guard db m tbl (.failure (.openStore path e), t')
  | opened {s : Session} {r : Report} {t' : FileTree} {m' : KeyMap String String}
      {tbl' : DefinitionTable} {journal : Journal} (opens : t.openStore path = .ok s)
      (effect : Effect s.tree m tbl c r m' tbl')
      (node : t'.node? names = some (.database (ofTables m' tbl') journal))
      (before : FileTree.SameDirectories (t.makeAbove path).1 s.tree)
      (same : FileTree.SameDirectories s.tree t')
      (logs : guard.admitsLog → (t.makeAbove path).1.LogsAt names → journal = .log)
      (clear : guard = .locks → s.tree.ClearAt names) :
      Outcome c path showsWarnings t names guard db m tbl (r, t')

theorem outcome_run {t : FileTree} {path : String} {a : Address} {m : KeyMap String String}
    {tbl : DefinitionTable} (c : Command) (showsWarnings : Bool)
    (ha : Address.read? path = some a) (ht : a.isTransient = false)
    (hn : names = t.namesOf a.path)
    (hd : (t.makeAbove path).1.database? names = some db) (hk : Schema.KeepsRefused db)
    (hfinal : (Schema.prepare db).answer = .ok () → (Schema.prepare db).final db = ofTables m tbl)
    (hw : tbl.WellFormed) :
    Outcome c path showsWarnings t names a.guard db m tbl (c.run path showsWarnings t) := by
  rcases run_cases c path showsWarnings t with ⟨f, hf, hr⟩ | ⟨r, hapart, hr⟩
  · rw [hr]
    have hleaves := FileTree.leaves_openStore ha ht hn hk hd
    cases ho : t.openStore path with
    | error found =>
      obtain ⟨e, t'⟩ := found
      rw [ho] at hleaves
      cases hleaves with
      | refused same kept logs =>
        rw [withStore_of_error ho]
        exact .unopened ho same kept logs
    | ok s =>
      rw [ho] at hleaves
      cases hleaves with
      | opened same place node prepared logs clear =>
        rw [hfinal prepared] at node
        obtain ⟨r, m', tbl', hends, heffect⟩ := hf s names _ _ m tbl ⟨place, node⟩ hw
        obtain ⟨hnode, hclose⟩ := hends.holds.close
        rw [withStore_of_ok ho, hends.report]
        exact .opened ho heffect hnode same (hends.same.trans hclose.toSameDirectories) logs clear
  · rw [hr]
    exact .apart hapart

end Command

end Predication
