import Predication.Proofs.Catalog.Listing
import Predication.Proofs.Command.Effect
import Predication.Proofs.Store.Seed

namespace Predication

open Database (ofTables putRows)

namespace Listing

theorem find?_write (l : Listing) (d : Definition) (name : String) :
    (l.write d).find? name = (find? [d] name).or (l.find? name) := by
  have hd : find? [d] name = if d.name = name then some d else none :=
    find?_written (.wrote d) name
  rw [write, find?_append, find?_erase, hd]
  by_cases hn : d.name = name
  · rw [if_pos hn.symm, if_pos hn]
    rfl
  · rw [if_neg (Ne.symm hn), if_neg hn, Option.or_none, Option.none_or]

theorem find?_foldl_write (ds : List Definition) (l : Listing) (name : String) :
    (ds.foldl write l).find? name = (find? ds.reverse name).or (l.find? name) := by
  induction ds generalizing l with
  | nil => rfl
  | cons d ds ih =>
    rw [List.foldl_cons, ih, find?_write, List.reverse_cons, find?_append, Option.or_assoc]

end Listing

def Database.view (db : Database) :
    Except StoreError (List Definition) × Except StoreError (Option String) :=
  ((Store.all db).answer, (Store.getMetadata Store.lastSeedKey db).answer)

theorem Database.view_ofTables (m : KeyMap String String) (tbl : DefinitionTable) :
    (ofTables m tbl).view = (.ok tbl.listing, .ok (m.get? Store.lastSeedKey)) :=
  rfl

namespace Command

def Reads : Command → Prop
  | .setup _ => False
  | .remove _ => False
  | .upsert _ => False
  | _ => True

/-- A definition written to a listing. It is the last one if its row gets the next number; the
others stay as they are wherever it is. -/
structure Writes (room : Prop) (l : Listing) (d : Definition) (l' : Listing) : Prop where
  perm : l'.Perm (l.write d)
  others : l'.erase d.name = l.erase d.name
  last : room → l' = l.write d

structure Lawful (c : Command) (path : String) (t : FileTree) (m : KeyMap String String)
    (tbl : DefinitionTable) (db' : Database) (r : Report) : Prop where
  listed : (Store.all (ofTables m tbl)).answer = .ok tbl.listing
  failure : r.exitCode ≠ 0 → db'.view = (ofTables m tbl).view
  reading : c.Reads → db'.view = (ofTables m tbl).view
  remove : ∀ name, c = .remove name → r.exitCode = 0 →
    db'.view = (.ok (tbl.listing.erase name), (ofTables m tbl).view.2)
  upsert : ∀ d, c = .upsert d → r.exitCode = 0 →
    ∃ l, db'.view = (.ok l, (ofTables m tbl).view.2) ∧ Writes (tbl.HasRoom 1) tbl.listing d l
  setup : ∀ seedFile, c = .setup seedFile → r.exitCode = 0 →
    ∃ s rows, t.openStore path = .ok s ∧ seedRows s.tree seedFile = .ok rows ∧
      db'.view = ((Store.all (Store.upsertEach (batch rows) (ofTables m tbl))).answer,
        .ok (some (Text.natText (batch rows).length))) ∧
      ∀ name, (Store.lookup? name db').answer =
        .ok (((Listing.find? rows.reverse name).or
          (Listing.find? Definition.wellKnown.reverse name)).or (tbl.listing.find? name))

section

variable {c : Command} {path : String} {t : FileTree} {db db' : Database} {r : Report}
  {m m' : KeyMap String String} {tbl tbl' : DefinitionTable}

theorem lawful_of_view (hv : db'.view = (ofTables m tbl).view)
    (hr : r.exitCode ≠ 0 ∨ c.Reads) : Lawful c path t m tbl db' r := by
  constructor
  case listed => exact Store.all_ofTables m tbl
  case failure => exact fun _ => hv
  case reading => exact fun _ => hv
  case remove =>
    rintro name rfl he
    exact absurd he (hr.resolve_right id)
  case upsert =>
    rintro d rfl he
    exact absurd he (hr.resolve_right id)
  case setup =>
    rintro seedFile rfl he
    exact absurd he (hr.resolve_right id)

theorem lawful_of_apart {showsWarnings : Bool} (h : Apart t showsWarnings c r) :
    Lawful c path t m tbl (ofTables m tbl) r := by
  refine lawful_of_view rfl ?_
  cases h with
  | refused bad => exact .inl nofun
  | expanded => exact .inr trivial
  | labelled => exact .inr trivial

theorem lawful_of_effect {s : Session} (hs : t.openStore path = .ok s) (hw : tbl.WellFormed)
    (hm : m.get? Store.lastSeedKey = m'.get? Store.lastSeedKey) {m'' : KeyMap String String}
    (h : Effect s.tree m' tbl c r m'' tbl') :
    Lawful c path t m tbl (ofTables m'' tbl') r := by
  have hkept : (ofTables m' tbl).view = (ofTables m tbl).view := by
    rw [Database.view_ofTables, Database.view_ofTables, hm]
  cases h with
  | failed other well => exact lawful_of_view hkept (.inl nofun)
  | symbols => exact lawful_of_view hkept (.inr trivial)
  | stats => exact lawful_of_view hkept (.inr trivial)
  | found there parses => exact lawful_of_view hkept (.inr trivial)
  | missing gone => exact lawful_of_view hkept (.inr trivial)
  | malformed there bad => exact lawful_of_view hkept (.inr trivial)
  | @removed name there =>
    constructor
    case listed => exact Store.all_ofTables m tbl
    case failure => exact fun he => absurd rfl he
    case reading => exact False.elim
    case upsert => exact nofun
    case setup => exact nofun
    case remove =>
      intro name' hc _
      cases hc
      rw [Database.view_ofTables, Database.view_ofTables, DefinitionTable.listing_erase, hm]
  | @stored d parses =>
    constructor
    case listed => exact Store.all_ofTables m tbl
    case failure => exact fun he => absurd rfl he
    case reading => exact False.elim
    case remove => exact nofun
    case setup => exact nofun
    case upsert =>
      intro d' hc _
      cases hc
      refine ⟨(tbl.put d).listing, ?_, ?_⟩
      · rw [Database.view_ofTables, Database.view_ofTables, hm]
      · exact ⟨tbl.perm_listing_put d, tbl.erase_listing_put d,
          fun hroom => DefinitionTable.listing_put hroom d⟩
  | @seeded seedFile rows read acceptable =>
    constructor
    case listed => exact Store.all_ofTables m tbl
    case failure => exact fun he => absurd rfl he
    case reading => exact False.elim
    case remove => exact nofun
    case upsert => exact nofun
    case setup =>
      intro seedFile' hc _
      cases hc
      have hput := Database.wellFormed_putRows hw (batch rows)
      have heach : Store.upsertEach (batch rows) (ofTables m tbl) =
          ofTables m (putRows tbl (batch rows)) :=
        Store.upsertEach_ofTables (fun d hd => (acceptable d hd).1) m tbl
      refine ⟨s, rows, hs, read, ?_, fun name => ?_⟩
      · rw [Database.view_ofTables, heach, Store.all_ofTables, KeyMap.get?_insert, if_pos rfl]
      · rw [Store.lookup?_ofTables _ hput,
          Listing.find?_of_perm (Database.perm_listing_putRows _ tbl) hput.distinct,
          Listing.find?_foldl_write, batch, List.reverse_append, Listing.find?_append]

theorem makeAbove_node {names : List String} {journal : Journal}
    (hn : t.node? names = some (.database db journal)) (path : String) :
    (t.makeAbove path).1.node? names = some (.database db journal) := by
  rcases (FileTree.grows_makeAbove t path).node names with h | ⟨h, -⟩
  · exact h.trans hn
  · rw [hn] at h
    cases h

end

end Command

/-- A run of the program at a store whose cells are texts changes no definition if it fails, or if
its command writes nothing, and else what its command is about. -/
theorem Invocation.run_lawful (i : Invocation) (env : Environment) (t : FileTree)
    {names : List String} {m : KeyMap String String} {tbl : DefinitionTable} {journal : Journal}
    (ha : t.addressed? (i.databasePath env) = some names)
    (hn : t.node? names = some (.database (ofTables m tbl) journal))
    (hi : tbl.categoryIndex = true) (hw : tbl.WellFormed) :
    ∃ db' journal', (i.run env t).2.node? names = some (.database db' journal') ∧
      i.command.Lawful (i.databasePath env) t m tbl db' (i.run env t).1 := by
  rw [Invocation.run]
  cases i.showsWarnings? env with
  | none => exact ⟨_, journal, hn, Command.lawful_of_view rfl (.inl nofun)⟩
  | some showsWarnings =>
    obtain ⟨a, hread, htransient, hnames⟩ := FileTree.addressed?_eq_some ha
    have hd := FileTree.database?_of_node (Command.makeAbove_node hn (i.databasePath env))
    have hprepared : (Schema.prepare (ofTables m tbl)).answer = .ok () →
        (Schema.prepare (ofTables m tbl)).final (ofTables m tbl) =
          ofTables (m.insert Schema.versionKey (Text.intText Schema.supported)) tbl := by
      intro hp
      rcases Schema.prepare_ofTables m hi with ⟨e, he, -⟩ | ⟨-, hf⟩
      · rw [hp] at he
        cases he
      · exact hf
    have houtcome := Command.outcome_run i.command showsWarnings hread htransient hnames hd
      (Schema.keepsRefused_ofTables m hi) hprepared hw
    dsimp only
    generalize i.command.run (i.databasePath env) showsWarnings t = result at houtcome ⊢
    cases houtcome with
    | apart apart => exact ⟨_, journal, hn, Command.lawful_of_apart apart⟩
    | unopened fails same kept logs =>
      obtain ⟨journal', hn'⟩ := FileTree.node?_of_database? kept nofun
      exact ⟨_, journal', hn', Command.lawful_of_view rfl (.inl nofun)⟩
    | opened opens effect node before same logs clear =>
      refine ⟨_, _, node, Command.lawful_of_effect opens hw ?_ effect⟩
      rw [KeyMap.get?_insert, if_neg (by decide)]

theorem Invocation.run_lawful_bare :
    ∃ db' journal', (run ⟨some "x.db", false, .remove "a"⟩ {}
        (.holding (ofTables [("schema_version", "0")] ⟨[⟨1, "a", "c", none⟩], true, []⟩))).2.node?
          ["w", "x.db"] = some (.database db' journal') ∧
      (Command.remove "a").Lawful "x.db"
        (.holding (ofTables [("schema_version", "0")] ⟨[⟨1, "a", "c", none⟩], true, []⟩))
        [("schema_version", "0")] ⟨[⟨1, "a", "c", none⟩], true, []⟩ db'
        (run ⟨some "x.db", false, .remove "a"⟩ {}
          (.holding (ofTables [("schema_version", "0")] ⟨[⟨1, "a", "c", none⟩], true, []⟩))).1 :=
  run_lawful ⟨some "x.db", false, .remove "a"⟩ {} _ (FileTree.addressed?_holding _)
    (FileTree.node?_holding _) rfl (List.nodup_singleton "a")

/-- A database of the layout of a store, whatever is in its cells. -/
def Database.IsCurrent (db : Database) : Prop :=
  db.isComplete ∧ ∀ c, db.foreign = some c → Image.isOwn c

theorem Store.all_of_hasOther {db : Database} (h : db.foreign.any Layout.hasOther) :
    (Store.all db).answer = .error .engine := by
  obtain ⟨c, hc, h⟩ := (Option.any_eq_true _ _).mp h
  change db.listDefinitions = .error .engine
  rw [Database.listDefinitions, hc]
  dsimp only
  rw [Layout.listed?_of_hasOther h]
  rfl

theorem Database.view_ne {db db' : Database} {a b : Option String} (hne : a ≠ b)
    (h : (Store.getMetadata Store.lastSeedKey db).answer = .ok a)
    (h' : (Store.getMetadata Store.lastSeedKey db').answer = .ok b) : db'.view ≠ db.view := by
  intro hv
  have hlast : (Store.getMetadata Store.lastSeedKey db').answer =
      (Store.getMetadata Store.lastSeedKey db).answer := congrArg Prod.snd hv
  rw [h, h'] at hlast
  exact hne (Except.ok.inj hlast).symm

theorem Command.ends_setup_of_hidden {s : Session} {names : List String} {journal : Journal}
    {log : Option Guard} {db : Database} {n : Nat} {e : StoreError}
    (h : s.Holds names journal log db) (hseed : (Store.seed (batch []) db).answer = .ok n)
    (hall : (Store.all ((Store.seed (batch []) db).final db)).answer = .error e) :
    Ends names journal log s (.failure (.readSymbols e)) ((Store.seed (batch []) db).final db)
      (runSetup s none) := by
  have hs : Store.seed (batch []) db = ⟨.ok n, (Store.seed (batch []) db).commits⟩ := by
    rw [← hseed]
  -- The batch is committed by now; only the listing fails.
  refine ends_reporting_of_ok _ h hs fun s hs => ?_
  have hread : Store.all ((Store.seed (batch []) db).final db) = ⟨.error e, []⟩ :=
    congrArg (Run.mk · []) hall
  exact ends_reporting_of_error .readSymbols hs hread

namespace Hidden

def table (name declaration : String) (cells : List Sql.Value) : Item where
  kind := .table
  name := name
  table := name
  sql := some declaration
  stored := some [([.integer 1], cells)]

def index (name table : String) (declaration : Option String) (key : String) : Item where
  kind := .index
  name := name
  table := table
  sql := declaration
  stored := some [([.ofString key], [.integer 1])]

def before : Database :=
  .ofCatalog { items := [
    table Layout.metadataName Layout.metadataDeclaration
      [.ofString Schema.versionKey, .ofString "1"],
    index (Catalog.automaticName Layout.metadataName 1) Layout.metadataName none Schema.versionKey,
    table Layout.definitionsName Layout.definitionsDeclaration
      [.ofString "a", .ofString "c", .blob [1]],
    index (Catalog.automaticName Layout.definitionsName 1) Layout.definitionsName none "a",
    index Layout.indexName Layout.definitionsName (some Layout.indexDeclaration) "c"] }

def prepared : Database :=
  (Schema.prepare before).final before

def seeding : Run Nat :=
  Store.seed (Command.batch []) prepared

def after : Database :=
  seeding.final prepared

set_option maxRecDepth 100000 in
theorem evaluated : (before.isComplete ∧ before.foreign.all Image.isOwn) ∧
    (Schema.prepare before).answer = .ok () ∧
    (Store.getMetadata Store.lastSeedKey before).answer = .ok none ∧
    seeding.answer = .ok 11 ∧
    (Store.getMetadata Store.lastSeedKey after).answer = .ok (some "11") ∧
    after.foreign.any Layout.hasOther := by
  decide +kernel

end Hidden

open Hidden in
/-- A failure does not keep what is in every store of the layout: if the definitions cannot be
shown, a set-up fails after it has written them. -/
theorem Invocation.exists_failure_that_writes :
    ¬ ∀ (i : Invocation) (env : Environment) (t : FileTree) (names : List String) (db : Database)
      (journal : Journal), t.addressed? (i.databasePath env) = some names →
      t.node? names = some (.database db journal) → db.IsCurrent → (i.run env t).1.exitCode ≠ 0 →
      ∃ db' journal', (i.run env t).2.node? names = some (.database db' journal') ∧
        db'.view = db.view := by
  intro hkept
  obtain ⟨⟨hcomplete, hown⟩, hprepare, hfirst, hseed, hlast, hother⟩ := evaluated
  have hcurrent : before.IsCurrent := ⟨hcomplete, fun c hc => by rwa [hc] at hown⟩
  obtain ⟨s, journal, log, hs, hholds⟩ := Session.holds_of_ready FileTree.isPlain_holding rfl
    (FileTree.ready_holding before) (FileTree.node?_holding before) hprepare
  have hends := Command.ends_setup_of_hidden hholds hseed (Store.all_of_hasOther hother)
  have hrun : run ⟨some "x.db", true, .setup none⟩ {} (.holding before) =
      ((Command.runSetup s none).1, (Command.runSetup s none).2.close) :=
    Command.withStore_of_ok hs
  have hexit : (run ⟨some "x.db", true, .setup none⟩ {} (.holding before)).1.exitCode ≠ 0 := by
    rw [hrun, hends.report]
    decide
  obtain ⟨db', journal', hn, hview⟩ := hkept _ {} _ _ before .log
    (FileTree.addressed?_holding before) (FileTree.node?_holding before) hcurrent hexit
  rw [hrun, hends.holds.close.1] at hn
  obtain ⟨rfl, -⟩ := FileNode.database.inj (Option.some.inj hn)
  exact Database.view_ne (by decide) hfirst hlast hview

end Predication
