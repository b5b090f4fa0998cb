import Predication.Proofs.Session.Reopening
import Predication.Proofs.Store.Initialization
import Predication.Proofs.Store.Refinement

namespace Predication

open Database (ofTables putRows)

inductive StoreUse where
  | call (c : StoreCall)
  | setMetadata (key value : String)

namespace StoreUse

def final : StoreUse → Database → Database
  | .call c, db => c.final db
  | .setMetadata key value, db => (Store.setMetadata key value db).final db

def SparesVersion : StoreUse → Prop
  | .call _ => True
  | .setMetadata key _ => key ≠ Schema.versionKey

end StoreUse

namespace Schema

variable {m : KeyMap String String} {tbl : DefinitionTable}

theorem Current.insert (h : Current m tbl) {key : String} (hk : key ≠ versionKey)
    (value : String) : Current (m.insert key value) tbl where
  version := by
    rw [KeyMap.get?_insert, if_neg hk.symm]
    exact h.version
  index := h.index

theorem Current.final (h : Current m tbl) {u : StoreUse} (hu : u.SparesVersion) :
    ∃ m' tbl', u.final (ofTables m tbl) = ofTables m' tbl' ∧ Current m' tbl' := by
  cases u with
  | call c =>
    cases c with
    | upsert d =>
      rw [StoreUse.final, StoreCall.final, Store.upsert_ofTables]
      split
      · exact ⟨m, tbl, rfl, h⟩
      · exact ⟨m, tbl.put d, rfl, h.version, h.index⟩
    | remove name =>
      rw [StoreUse.final, StoreCall.final, Store.remove_ofTables]
      exact ⟨m, tbl.erase name, rfl, h.version, h.index⟩
    | seed ds =>
      rw [StoreUse.final, StoreCall.final]
      by_cases ha : Acceptable ds
      · have hput : Current m (putRows tbl ds) :=
          ⟨h.version, (Database.categoryIndex_putRows ds tbl).trans h.index⟩
        rw [Store.seed_of_acceptable ha]
        exact ⟨_, _, rfl, hput.insert (by decide) _⟩
      · obtain ⟨reason, hs⟩ := Store.seed_of_not_acceptable ha m tbl
        rw [hs]
        exact ⟨m, tbl, rfl, h⟩
  | setMetadata key value =>
    rw [StoreUse.final, Store.setMetadata_ofTables]
    exact ⟨_, tbl, rfl, h.insert hu value⟩

end Schema

namespace Session

def use (s : Session) : StoreUse → Session
  | .call (.upsert d) => (s.run (Store.upsert d)).2
  | .call (.remove name) => (s.run (Store.remove name)).2
  | .call (.seed ds) => (s.run (Store.seed ds)).2
  | .setMetadata key value => (s.run (Store.setMetadata key value)).2

def useAll (s : Session) (uses : List StoreUse) : Session :=
  uses.foldl use s

structure ShowsAlike (s s' : Session) : Prop where
  all : ∃ ds, (s.run Store.all).1 = .ok ds ∧ (s'.run Store.all).1 = .ok ds
  count : ∃ n, (s.run Store.count).1 = .ok n ∧ (s'.run Store.count).1 = .ok n
  metadata : ∀ key, ∃ entry, (s.run (Store.getMetadata key)).1 = .ok entry ∧
    (s'.run (Store.getMetadata key)).1 = .ok entry

/-- A session that goes on: its own file is another, and what is in the log beside it is not. -/
structure Continues (names : List String) (s s' : Session) : Prop where
  confined : FileTree.Confined names s.tree s'.tree
  filled : s'.tree.isFilled names FileTree.logEnding = s.tree.isFilled names FileTree.logEnding

variable {s s' s'' : Session} {names : List String} {journal : Journal} {log : Option Guard}
  {db : Database} {m : KeyMap String String} {tbl : DefinitionTable}

theorem Continues.refl (names : List String) (s : Session) : Continues names s s :=
  ⟨.refl names s.tree, rfl⟩

theorem Continues.trans (h : Continues names s s') (h' : Continues names s' s'') :
    Continues names s s'' :=
  ⟨h.confined.trans h'.confined, h'.filled.trans h.filled⟩

theorem Holds.continues (h : s.Holds names journal log db) (db' : Database) :
    Continues names s (s.store db') := by
  refine ⟨(h.store db').2, ?_⟩
  rw [h.store_eq]
  exact FileTree.isFilled_put s.tree names _

theorem Holds.use (h : s.Holds names journal log db) (u : StoreUse) :
    s.use u = s.store (u.final db) := by
  cases u with
  | call c => cases c <;> exact congrArg Prod.snd (h.run _)
  | setMetadata key value => exact congrArg Prod.snd (h.run _)

theorem Holds.useAll (h : s.Holds names journal log (ofTables m tbl)) (hc : Schema.Current m tbl)
    {uses : List StoreUse} (hu : ∀ u ∈ uses, u.SparesVersion) :
    ∃ m' tbl', (s.useAll uses).Holds names journal log (ofTables m' tbl') ∧
      Schema.Current m' tbl' ∧ Continues names s (s.useAll uses) := by
  induction uses generalizing s m tbl with
  | nil => exact ⟨m, tbl, h, hc, .refl names s⟩
  | cons u uses ih =>
    obtain ⟨hfirst, hrest⟩ := List.forall_mem_cons.mp hu
    obtain ⟨m₁, tbl₁, hfinal, hc₁⟩ := hc.final hfirst
    have hstep : s.use u = s.store (ofTables m₁ tbl₁) := by rw [h.use, hfinal]
    obtain ⟨m', tbl', hholds, hc', hcontinues⟩ := ih (h.store _).1 hc₁ hrest
    rw [Session.useAll, List.foldl_cons, hstep]
    exact ⟨m', tbl', hholds, hc', (h.continues _).trans hcontinues⟩

theorem showsAlike_of_prepare (h : s.Holds names journal log (ofTables m tbl))
    (hc : Schema.Current m tbl) {journal' : Journal} {log' : Option Guard}
    (h' : s'.Holds names journal' log' ((Schema.prepare (ofTables m tbl)).final (ofTables m tbl))) :
    ShowsAlike s s' := by
  have hsupports : Schema.Supports (m.get? Schema.versionKey) := by
    rw [hc.version]
    exact Schema.supports_supported
  rw [(Schema.prepare_of_supports tbl hsupports).2,
    DefinitionTable.indexed_of_categoryIndex hc.index] at h'
  constructor
  case all => exact ⟨_, by rw [h.run]; rfl, by rw [h'.run]; rfl⟩
  case count => exact ⟨_, by rw [h.run]; rfl, by rw [h'.run]; rfl⟩
  case metadata =>
    intro key
    refine ⟨m.get? key, by rw [h.run]; rfl, ?_⟩
    rw [h'.run]
    refine (Store.getMetadata_ofTables _ tbl key).trans (congrArg Except.ok ?_)
    rw [KeyMap.get?_insert]
    split
    · next hk => rw [hk, hc.version]
    · rfl

end Session

namespace FileTree

variable {t : FileTree} {names : List String} {guard : Guard} {journal : Journal}
  {log : Option Guard} {s s' : Session} {db : Database} {a : Address} {address : String}

def JournalFits (names : List String) : Prop :=
  (names.getLastD "" ++ journalEnding).utf8ByteSize ≤ nameLimit

theorem Usable.admits_iff (hu : t.Usable names guard journal)
    (hf : t.isFilled names logEnding = false) :
    t.Admits names guard journal ↔ journal = .log ∨ JournalFits names := by
  constructor
  · intro ha
    cases journal with
    | log => exact .inl rfl
    | rollback =>
      have hadmits := ha.begins rfl hf
      rw [admitsJournal, Bool.and_eq_true] at hadmits
      exact .inr (by simpa [JournalFits] using hadmits.1)
  · intro hj
    have hclear : t.isBlocked names journalEnding = false := by
      cases hg : guard.admitsLog with
      | true => exact hu.clear (Guard.leavesJournal_of_admitsLog hg)
      | false => exact isBlocked_of_admitsJournal (hu.unlogged hg).2
    refine ⟨hu.log, hu.index, ?_, fun hg => ⟨(hu.unlogged hg).1, hf⟩⟩
    rintro rfl -
    rcases hj with hj | hfits
    · cases hj
    · rw [admitsJournal, hclear, Bool.not_false, Bool.and_true]
      exact decide_eq_true hfits

theorem isFilled_close (ho : Opened t names guard journal s)
    (hk : Session.Continues names s s') (hs : s'.Holds names journal guard.log? db) :
    s'.close.isFilled names logEnding = false := by
  rw [Session.close, hs.place, Guard.log?]
  cases hg : guard.admitsLog with
  | true => exact isFilled_removeLog s'.tree names guard
  | false => exact hk.filled.trans (ho.unlogged hg)

theorem openFound_close_isOk_iff (ho : OpenedAt t names a journal s)
    (hk : Session.Continues names s s')
    (hs : s'.Holds names journal (t.heedMarker names a).guard.log? db)
    (hp : (Schema.prepare db).answer = .ok ()) :
    (∃ s₂, s'.close.openFound a names = .ok s₂) ↔ journal = .log ∨ JournalFits names := by
  obtain ⟨hnode, hclose⟩ := hs.close
  have hthere := ho.confined.trans (hk.confined.trans hclose)
  have husable := (hk.confined.trans hclose).usable ho.usable
  have hheed := hthere.heedMarker a
  rw [openFound_isOk_iff hnode hp ho.thawed ho.writes ((hthere.isMarked a.guard).trans ho.unmarked)
    (hheed ▸ husable.clear), hheed, husable.admits_iff (isFilled_close ho.toOpened hk hs)]

theorem isTransient_of_openStore (ha : Address.read? address = some a)
    (ho : t.openStore address = .ok s) (hp : s.place = .file names journal log) :
    a.isTransient = false := by
  by_contra ht
  rw [Bool.not_eq_false] at ht
  rw [openStore] at ho
  split at ho
  · cases ho
  · split at ho
    · cases ho
    · rw [ha] at ho
      dsimp only at ho
      rw [openAddress, if_pos ht] at ho
      split at ho
      · cases ho
      · cases ho
        cases hp

end FileTree

namespace Session

structure Reopens (address : String) (a : Address) (names : List String) (journal : Journal)
    (s : Session) : Prop where
  opens_iff : (∃ s₂, s.close.openStore address = .ok s₂) ↔
    s.close.Reaches a names ∧ (journal = .log ∨ FileTree.JournalFits names)
  reaches : FileTree.IsPlain address → s.close.Reaches a names
  shows : ∀ s₂, s.close.openStore address = .ok s₂ → ShowsAlike s s₂

variable {t : FileTree} {address : String} {a : Address} {s s' : Session} {names : List String}
  {journal : Journal} {log : Option Guard} {m : KeyMap String String} {tbl : DefinitionTable}

theorem reopens_of_opened (ha : Address.read? address = some a) (ht : a.isTransient = false)
    (hleads : t.Leads address a.path names) (ho : t.OpenedAt names a journal s)
    (hk : Continues names s s') (hs : s'.Holds names journal (t.heedMarker names a).guard.log?
      (ofTables m tbl)) (hc : Schema.Current m tbl) : Reopens address a names journal s' := by
  obtain ⟨hnode, hclose⟩ := hs.close
  have hthere := (ho.confined.trans (hk.confined.trans hclose)).toSameDirectories
  have hkept : ∀ ns, t.isDirectoryAt ns → s'.close.isDirectoryAt ns := by
    intro ns hd
    rw [hthere.isDirectoryAt]
    exact hd
  have habove : ∀ above, Path.parent? address = some above → s'.close.isDirectory above :=
    fun above h => FileTree.isDirectory_of_kept hthere.workingDirectory hkept (hleads.above above h)
  have hnames : names = s'.close.namesOf a.path := by
    rw [FileTree.namesOf_of_databaseNames? hleads.reaches, FileTree.namesOf, FileTree.namesOf,
      hthere.workingDirectory]
  have hprepared : (Schema.prepare (ofTables m tbl)).answer = .ok () := by
    refine (Schema.prepare_of_supports tbl ?_).1
    rw [hc.version]
    exact Schema.supports_supported
  constructor
  case opens_iff =>
    rw [FileTree.openStore_isOk_iff ha ht hleads.text habove hnames (hkept _ hleads.parent),
      FileTree.openFound_close_isOk_iff ho hk hs hprepared]
  case reaches =>
    intro hplain
    rw [hplain.read?] at ha
    cases ha
    refine ⟨?_, rfl⟩
    rw [FileTree.databaseNames?_of_kept hkept hthere.workingDirectory hleads.above]
    exact hleads.reaches
  case shows =>
    intro s₂ h
    have hd : (s'.close.makeAbove address).1.database? names = some (ofTables m tbl) := by
      rw [FileTree.makeAbove_of_isDirectory habove]
      exact FileTree.database?_of_node hnode
    have hleaves := FileTree.leaves_openStore ha ht hnames (Schema.keepsRefused_of_ok hprepared) hd
    rw [h] at hleaves
    cases hleaves with
    | opened same place node prepared logs clear => exact showsAlike_of_prepare hs hc ⟨place, node⟩

/-- Whatever is done with a store in a file, but for setting its version, it is there again when the
store is closed and opens again. Preparing a database with both tables, which every opening does,
keeps all but the version, and refuses a version that is not supported for good. -/
theorem reopens_useAll (ha : Address.read? address = some a) (ho : t.openStore address = .ok s)
    (hs : s.Holds names journal log (ofTables m tbl)) {uses : List StoreUse}
    (hu : ∀ u ∈ uses, u.SparesVersion) :
    Reopens address a names journal (s.useAll uses) ∧
      ∀ m tbl, Schema.Initialized m tbl (Schema.prepare (ofTables m tbl)) := by
  refine ⟨?_, Schema.initialized_prepare⟩
  have ht := FileTree.isTransient_of_openStore ha ho hs.place
  obtain ⟨hleads, journal', hopened⟩ := FileTree.opened_openStore ha ht ho
  obtain ⟨db, hprepared, hfound⟩ := hopened.holds
  cases hs.place.symm.trans hfound.place
  have hfinal : (Schema.prepare db).final db = ofTables m tbl :=
    (FileNode.database.inj (Option.some.inj (hfound.node.symm.trans hs.node))).1
  obtain ⟨m', tbl', hholds, hc', hcontinues⟩ :=
    hs.useAll (Schema.current_of_prepare hprepared hfinal) hu
  exact reopens_of_opened ha ht hleads hopened hcontinues hholds hc'

theorem reopens_useAll_holding :
    ∃ s journal log, (FileTree.holding (ofTables [("schema_version", "0")]
        ⟨[⟨1, "a", "c", none⟩], true, []⟩)).openStore "x.db" = .ok s ∧
      Reopens "x.db" { path := "x.db" } ["w", "x.db"] journal (s.useAll
        [.call (.seed [⟨"b", "c", "1"⟩]), .setMetadata "k" "v", .call (.remove "a"),
          .call (.upsert ⟨"d", "", "x"⟩)]) ∧
      s.Holds ["w", "x.db"] journal log
        (ofTables [("schema_version", "1")] ⟨[⟨1, "a", "c", none⟩], true, []⟩) := by
  obtain ⟨s, journal, log, hs, hholds⟩ := holds_of_ready FileTree.isPlain_holding rfl
    (FileTree.ready_holding (ofTables [("schema_version", "0")] ⟨[⟨1, "a", "c", none⟩], true, []⟩))
    (FileTree.node?_holding _) rfl
  refine ⟨s, journal, log, hs, ?_, hholds⟩
  exact (reopens_useAll FileTree.isPlain_holding.read? hs hholds
    (by simp [StoreUse.SparesVersion, Schema.versionKey])).1

end Session

namespace FileTree

theorem openStore_memory (t : FileTree) : t.openStore ":memory:" = .ok t.openMemory := by
  have hpieces : Path.pieces ":memory:" = [":memory:"] := Path.pieces_of_notMem (by decide)
  have habove : ∀ above, Path.parent? ":memory:" = some above → t.isDirectory above := by
    intro above h
    rw [Path.parent?, hpieces] at h
    cases h
  have htext : ":memory:".contains '\x00' = false := by simp
  have hread : Address.read? ":memory:" = some { path := ":memory:" } := by decide +kernel
  rw [openStore, makeAbove_of_isDirectory habove]
  dsimp only
  rw [htext, hread]
  rfl

/-- The address of a file that leads through a name below the file, and back. -/
def astray : String := "file:x.db%2Fy%2F..%2F..%2Fx.db"

theorem read?_astray : Address.read? astray = some { path := "x.db/y/../../x.db" } := by
  decide +kernel

theorem pieces_astray :
    Path.pieces "x.db/y/../../x.db" = ["x.db", "y", "..", "..", "x.db"] := by
  rw [Path.pieces_eq]
  decide

theorem isAbsolute_astray : Path.isAbsolute "x.db/y/../../x.db" = false := by
  simpa using Path.isAbsolute_iff pieces_astray

/-- To go through a name below it takes a directory, which a file with a database is not. -/
theorem databaseNames?_astray {t : FileTree} {db : Database} {journal : Journal}
    (hw : t.workingDirectory = ["w"]) (hn : t.node? ["w", "x.db"] = some (.database db journal)) :
    t.databaseNames? "x.db/y/../../x.db" = none := by
  have hthere : t.node? ["w"] = some .directory := by simp [node?, hw]
  have hfirst : t.extend? ["w"] "x.db" = some ["w", "x.db"] := by
    rw [extend?, step, hthere]
    rfl
  have hsecond : t.extend? ["w", "x.db"] "y" = none := by
    rw [extend?, step, hn]
    rfl
  rw [databaseNames?, pieces_astray, isAbsolute_astray, if_neg (by decide), hw]
  simp only [List.foldlM_cons, hfirst, hsecond, Option.bind_eq_bind, Option.bind_some,
    Option.bind_none]

theorem reaches_astray :
    Reaches { workingDirectory := ["w"] } { path := "x.db/y/../../x.db" } ["w", "x.db"] := by
  refine ⟨?_, rfl⟩
  rw [databaseNames?, pieces_astray, isAbsolute_astray, if_neg (by decide)]
  decide

theorem parent?_astray : Path.parent? astray = none := by
  have hpieces : Path.pieces astray = [astray] := Path.pieces_of_notMem (by decide)
  rw [Path.parent?, hpieces]
  rfl

theorem makeAbove_astray (t : FileTree) : t.makeAbove astray = (t, true) :=
  makeAbove_of_isDirectory (by simp [parent?_astray])

theorem holds_astray : ∃ s journal log,
    FileTree.openStore { workingDirectory := ["w"] } astray = .ok s ∧
      s.Holds ["w", "x.db"] journal log Store.opened ∧ s.tree.workingDirectory = ["w"] := by
  have htext : astray.contains '\x00' = false := by simp [astray]
  have hnames := namesOf_of_databaseNames? reaches_astray.names
  have hopens := openStore_isOk_iff read?_astray rfl htext (by simp [parent?_astray]) hnames rfl
  obtain ⟨s, hs⟩ := hopens.mpr ⟨reaches_astray, _, rfl⟩
  have hprepared : (Schema.prepare .blank).answer = .ok () := rfl
  have hleaves := leaves_openStore read?_astray rfl hnames (Schema.keepsRefused_of_ok hprepared) (by
    rw [makeAbove_astray]
    rfl)
  rw [hs, makeAbove_astray] at hleaves
  cases hleaves with
  | opened same place node prepared logs clear =>
    exact ⟨s, _, _, hs, ⟨place, node⟩, same.workingDirectory⟩

theorem openStore_astray_ne_ok {t : FileTree} {db : Database} {journal : Journal}
    (hw : t.workingDirectory = ["w"]) (hn : t.node? ["w", "x.db"] = some (.database db journal))
    (s : Session) : t.openStore astray ≠ .ok s := by
  intro h
  have hleads := (opened_openStore read?_astray rfl h).1
  rw [makeAbove_astray] at hleads
  have hreaches := hleads.reaches
  rw [databaseNames?_astray hw hn] at hreaches
  cases hreaches

end FileTree

namespace Session

/-- A store in memory is gone when it is closed; an address that leads through its own file does not
lead there again; and a version that is no UTF-8 is refused by the engine, as no invalid data. -/
theorem not_reopens :
    (¬ ∀ (t : FileTree) (address : String) (s s₂ : Session) (uses : List StoreUse),
      t.openStore address = .ok s → (∀ u ∈ uses, u.SparesVersion) →
        (s.useAll uses).close.openStore address = .ok s₂ → ShowsAlike (s.useAll uses) s₂) ∧
    (¬ ∀ (t : FileTree) (address : String) (s : Session) (uses : List StoreUse),
      t.openStore address = .ok s → (∀ u ∈ uses, u.SparesVersion) →
        (∃ names journal log m tbl, s.Holds names journal log (ofTables m tbl)) →
          ∃ s₂, (s.useAll uses).close.openStore address = .ok s₂) ∧
    ¬ ∀ (c : Catalog) (text : Sql.Bytes) (e : StoreError), Image.isOwn c → Layout.isComplete c →
      c.lookup? Layout.metadataName Layout.keyColumn Schema.versionKey
        [Catalog.column Layout.valueColumn] = some (some [.text text]) →
      (Schema.prepare (.ofCatalog c)).answer = .error e → ∃ reason, e = .invalid reason := by
  refine ⟨?_, ?_, ?_⟩
  · intro h
    have hshows := h {} ":memory:" _ _ [.call (.upsert ⟨"a", "c", ""⟩)]
      (FileTree.openStore_memory {}) (by simp [StoreUse.SparesVersion])
      (FileTree.openStore_memory _)
    obtain ⟨n, hone, hnone⟩ := hshows.count
    cases hone
    cases hnone
  · intro h
    obtain ⟨s, journal, log, hs, hholds, hw⟩ := FileTree.holds_astray
    obtain ⟨hnode, hclose⟩ := hholds.close
    obtain ⟨s₂, hs₂⟩ := h _ _ s [] hs (by simp) ⟨_, _, _, _, _, hholds⟩
    exact FileTree.openStore_astray_ne_ok (hclose.workingDirectory.trans hw) hnode s₂ hs₂
  · intro h
    obtain ⟨hown, hcomplete, htext, hrefused⟩ := Schema.prepare_garbled
    obtain ⟨reason, hreason⟩ := h _ _ _ hown hcomplete htext hrefused
    cases hreason

end Session

end Predication
