import Predication.Proofs.Session.Opened

namespace Predication.FileTree

variable {t t' : FileTree} {path : String} {names : List String} {db : Database}

def IsPlain (path : String) : Prop :=
  path.startsWith "file:" = false

theorem IsPlain.read? (h : IsPlain path) : Address.read? path = some { path := path } := by
  rw [Address.read?, h]
  rfl

structure Ready (t : FileTree) (path : String) (names : List String) : Prop where
  leads : t.Leads path path names
  clear : t.ClearAt names

theorem SameDirectories.ready (h : SameDirectories t t') (hr : t.Ready path names) :
    t'.Ready path names := by
  have hkept : ∀ ns, t.isDirectoryAt ns → t'.isDirectoryAt ns := by
    intro ns hd
    rw [h.isDirectoryAt]
    exact hd
  refine ⟨⟨hr.leads.text, ?_, ?_, hkept _ hr.leads.parent⟩, h.clearAt hr.clear⟩
  · intro above ha
    exact isDirectory_of_kept h.workingDirectory hkept (hr.leads.above above ha)
  · rw [databaseNames?_of_kept hkept h.workingDirectory hr.leads.above]
    exact hr.leads.reaches

theorem Ready.makeAbove (h : t.Ready path names) : t.makeAbove path = (t, true) :=
  makeAbove_of_isDirectory h.leads.above

theorem prepareFile_of_prepared {journal : Journal}
    (hn : t.node? names = some (.database db journal))
    (hp : (Schema.prepare db).answer = .ok ()) (log : Option Guard) :
    ∃ s, t.prepareFile names journal log = .ok s := by
  rw [prepareFile_of_node hn, hp]
  exact ⟨_, rfl⟩

theorem SameDirectories.admits (h : SameDirectories t t') {guard : Guard} {journal : Journal}
    (hf : t'.isFilled names logEnding = t.isFilled names logEnding) :
    t'.Admits names guard journal ↔ t.Admits names guard journal := by
  have hall : ∀ t₁ t₂ : FileTree, SameDirectories t₁ t₂ →
      t₂.isFilled names logEnding = t₁.isFilled names logEnding →
        t₁.Admits names guard journal → t₂.Admits names guard journal := by
    intro t₁ t₂ hs hf ha
    refine ⟨(hs.isBlocked _ _).trans ha.log, fun hg => (hs.hidesIndex _ _).trans (ha.index hg),
      ?_, ?_⟩
    · rw [hf, hs.admitsJournal]
      exact ha.begins
    · rw [hf]
      exact ha.unlogged
  exact ⟨hall t' t h.symm hf.symm, hall t t' h hf⟩

theorem openWriting_isOk_iff {guard : Guard} {journal : Journal}
    (hn : t.node? names = some (.database db journal)) (hp : (Schema.prepare db).answer = .ok ()) :
    (∃ s, t.openWriting names guard db journal = .ok s) ↔ t.Admits names guard journal := by
  have hw : Writes t names guard db journal (t.openWriting names guard db journal) :=
    writes_openWriting (isDirectoryAt_of_database? (database?_of_node hn))
  generalize t.openWriting names guard db journal = opening at hw
  cases hw with
  | refused bars same kept => exact iff_of_false (by simp) bars
  | prepares admits confined node logged unlogged =>
    exact iff_of_true (prepareFile_of_prepared node hp _) admits

theorem finding_of_node {journal : Journal} (hn : t.node? names = some (.database db journal))
    (a : Address) : t.finding names a = .found db journal := by
  rw [finding, hn]

section

variable {a : Address} {journal : Journal} (hn : t.node? names = some (.database db journal))
  (hp : (Schema.prepare db).answer = .ok ())
include hn hp

theorem openSettled_isOk_iff (hw : a.access ≠ .reading) :
    (∃ s, t.openSettled names a = .ok s) ↔ t.Admits names a.guard journal := by
  rw [openSettled, finding_of_node hn]
  dsimp only
  rw [if_neg hw]
  exact openWriting_isOk_iff hn hp

theorem openFound_isOk_iff (hf : a.frozen = false) (hw : a.access ≠ .reading)
    (hm : t.isMarked names a.guard = false)
    (hj : (t.heedMarker names a).guard.leavesJournal = false →
      t.isBlocked names journalEnding = false) :
    (∃ s, t.openFound a names = .ok s) ↔ t.Admits names (t.heedMarker names a).guard journal := by
  have hw' : (t.heedMarker names a).access ≠ .reading := by
    rw [heedMarker_access]
    exact hw
  have hguarded : t.openFound a names = t.openGuarded names a := by
    rw [openFound, hf, finding_of_node hn]
  rw [hguarded, openGuarded, hm]
  generalize t.heedMarker names a = a' at hw' hj ⊢
  have hdenies : t.deniesJournal names a' = false := by
    rw [deniesJournal]
    cases hg : a'.guard.leavesJournal with
    | true => rfl
    | false => simp [hj hg, hw']
  have hbytes := bytes?_of_node hn
  have hrecovered := agreeAt_recover t names a'.guard hbytes
  dsimp only
  rw [if_neg (by decide), finding_of_node hn, hdenies]
  dsimp only
  rw [if_neg (by decide), if_neg hw', openSettled_isOk_iff (hrecovered.node.trans hn) hp hw',
    hrecovered.toSameDirectories.admits (isFilled_recover a'.guard hbytes)]

end

/-- The path of an address leads to the names, and the model that the address names is there. -/
structure Reaches (t : FileTree) (a : Address) (names : List String) : Prop where
  names : t.databaseNames? a.path = some names
  model : a.model.all fun path => (t.locate path).isOk

theorem openAddress_isOk_iff {a : Address} (ht : a.isTransient = false)
    (hn : names = t.namesOf a.path) (hparent : t.isDirectoryAt names.dropLast) :
    (∃ s, t.openAddress a = .ok s) ↔ t.Reaches a names ∧ ∃ s, t.openFound a names = .ok s := by
  rw [openAddress, ht]
  dsimp only
  rw [if_neg (by decide)]
  split
  · next hnone =>
    refine iff_of_false (by simp [refuse]) fun h => ?_
    rw [h.1.names] at hnone
    cases hnone
  · next ns hns =>
    obtain rfl : ns = names := (namesOf_of_databaseNames? hns).trans hn.symm
    rw [hparent, Bool.and_true]
    split
    · next hmodel => exact ⟨fun h => ⟨⟨hns, hmodel⟩, h⟩, fun h => h.2⟩
    · next hmodel => exact iff_of_false (by simp [refuse]) fun h => hmodel h.1.model

theorem openStore_isOk_iff {address : String} {a : Address} (ha : Address.read? address = some a)
    (ht : a.isTransient = false) (htext : address.contains '\x00' = false)
    (habove : ∀ above, Path.parent? address = some above → t.isDirectory above)
    (hn : names = t.namesOf a.path) (hparent : t.isDirectoryAt names.dropLast) :
    (∃ s, t.openStore address = .ok s) ↔ t.Reaches a names ∧ ∃ s, t.openFound a names = .ok s := by
  rw [openStore, makeAbove_of_isDirectory habove]
  dsimp only
  rw [htext, if_neg (by decide), ha]
  exact openAddress_isOk_iff ht hn hparent

theorem ClearAt.admits (h : t.ClearAt names) : t.Admits names .locks .log :=
  ⟨h.log, fun _ => (Bool.false_or _).trans h.index, by simp, fun hg => absurd hg (by decide)⟩

theorem openStore_of_ready (hplain : IsPlain path)
    (ht : ({ path := path } : Address).isTransient = false) (h : t.Ready path names)
    (hn : t.node? names = some (.database db .log)) (hp : (Schema.prepare db).answer = .ok ()) :
    ∃ s, t.openStore path = .ok s := by
  rw [openStore_isOk_iff hplain.read? ht h.leads.text h.leads.above
    (namesOf_of_databaseNames? h.leads.reaches) h.leads.parent]
  have hwrites : ({ path := path } : Address).access ≠ .reading := by simp
  refine ⟨⟨h.leads.reaches, rfl⟩, ?_⟩
  rw [openFound_isOk_iff hn hp rfl hwrites rfl fun _ => h.clear.journal]
  exact h.clear.admits

theorem ready_of_openStore {s : Session} (hplain : IsPlain path)
    (ht : t.addressed? path = some names)
    (hclear : s.tree.ClearAt names)
    (hsame : SameDirectories (t.makeAbove path).1 s.tree) (h : t.openStore path = .ok s) :
    s.tree.Ready path names := by
  obtain ⟨a, ha, htransient, hnames⟩ := addressed?_eq_some ht
  rw [hplain.read?] at ha
  cases ha
  rcases openStore_cases hplain.read? htransient hnames with ⟨e, he⟩ | ⟨hleads, -⟩
  · rw [h] at he
    cases he
  · have hready : Ready (t.makeAbove path).1 path names :=
      ⟨hleads, ⟨(hsame.isBlocked _ _).symm.trans hclear.journal,
        (hsame.isBlocked _ _).symm.trans hclear.log, (hsame.isBlocked _ _).symm.trans hclear.index⟩⟩
    exact hsame.ready hready

theorem isDirectoryAt_workingDirectory (t : FileTree) : t.isDirectoryAt t.workingDirectory := by
  simp [isDirectoryAt_iff, node?]

section

variable {name : String} (hs : '/' ∉ name.toList)
include hs

theorem isAbsolute_of_name : Path.isAbsolute name = false := by
  simpa using Path.isAbsolute_iff (Path.pieces_of_notMem hs)

variable (hi : ¬ Path.isIdle name)
include hi

theorem addressed?_of_name (hplain : IsPlain name) (hd : name ≠ "..")
    (ht : ({ path := name } : Address).isTransient = false) :
    t.addressed? name = some (t.workingDirectory ++ [name]) := by
  rw [addressed?, hplain.read?]
  dsimp only
  simp [ht, FileTree.namesOf, isAbsolute_of_name hs, Path.pieces_of_notMem hs, hi, hd]

theorem ready_of_name (htext : name.contains '\x00' = false)
    (hext : t.extend? t.workingDirectory name = some (t.workingDirectory ++ [name]))
    (hlength : fullLength (t.workingDirectory ++ [name]) + journalEnding.utf8ByteSize ≤
      databasePathLimit)
    (hc : t.ClearAt (t.workingDirectory ++ [name])) :
    t.Ready name (t.workingDirectory ++ [name]) := by
  refine ⟨⟨htext, ?_, ?_, ?_⟩, hc⟩
  · intro above h
    rw [Path.parent?, Path.pieces_of_notMem hs] at h
    simp [hi] at h
  · simp [databaseNames?, Path.pieces_of_notMem hs, isAbsolute_of_name hs, hext, hlength]
  · rw [List.dropLast_concat]
    exact isDirectoryAt_workingDirectory t

end

def holding (db : Database) : FileTree where
  workingDirectory := ["w"]
  nodes := [("w/x.db", .database db .log)]

theorem isPlain_holding : IsPlain "x.db" := rfl

theorem addressed?_holding (db : Database) :
    (holding db).addressed? "x.db" = some ["w", "x.db"] :=
  addressed?_of_name (by decide) (by decide) isPlain_holding (by decide) rfl

theorem ready_holding (db : Database) : (holding db).Ready "x.db" ["w", "x.db"] := by
  have hlength : fullLength ["w", "x.db"] + journalEnding.utf8ByteSize ≤ databasePathLimit := by
    decide
  exact ready_of_name (by decide) (by decide) (by simp) rfl hlength ⟨rfl, rfl, rfl⟩

theorem node?_holding (db : Database) :
    (holding db).node? ["w", "x.db"] = some (.database db .log) :=
  rfl

end Predication.FileTree

namespace Predication.Session

theorem holds_of_ready {t : FileTree} {path : String} {names : List String} {db : Database}
    (hplain : FileTree.IsPlain path) (ht : ({ path := path } : Address).isTransient = false)
    (h : t.Ready path names) (hn : t.node? names = some (.database db .log))
    (hp : (Schema.prepare db).answer = .ok ()) :
    ∃ s journal log, t.openStore path = .ok s ∧
      s.Holds names journal log ((Schema.prepare db).final db) := by
  obtain ⟨s, hs⟩ := FileTree.openStore_of_ready hplain ht h hn hp
  have hd : (t.makeAbove path).1.database? names = some db := by
    rw [h.makeAbove]
    exact FileTree.database?_of_node hn
  have hleaves := FileTree.leaves_openStore hplain.read? ht
    (FileTree.namesOf_of_databaseNames? h.leads.reaches) (Schema.keepsRefused_of_ok hp) hd
  rw [hs] at hleaves
  cases hleaves with
  | opened same place node prepared logs clear => exact ⟨s, _, _, hs, place, node⟩

end Predication.Session
