import Predication.Proofs.Session.Opening

namespace Predication

theorem Guard.leavesJournal_of_admitsLog {g : Guard} (h : g.admitsLog) :
    g.leavesJournal = false := by
  cases g <;> first | rfl | cases h

namespace Session

structure Holds (s : Session) (names : List String) (journal : Journal) (log : Option Guard)
    (db : Database) : Prop where
  place : s.place = .file names journal log
  node : s.tree.node? names = some (.database db journal)

variable {s : Session} {names : List String} {journal : Journal} {log : Option Guard}
  {db : Database}

theorem Holds.run {α : Type} (h : s.Holds names journal log db) (script : Script α) :
    s.run script = ((script db).answer, s.store ((script db).final db)) := by
  rw [Session.run, Session.database?, h.place]
  dsimp only
  rw [h.node]

theorem Holds.store_eq (h : s.Holds names journal log db) (db' : Database) :
    s.store db' = ⟨s.tree.put names (.database db' journal), s.place⟩ := by
  rw [Session.store, h.place]

theorem Holds.isDirectoryAt (h : s.Holds names journal log db) :
    s.tree.isDirectoryAt names = false :=
  FileTree.isDirectoryAt_of_database? (FileTree.database?_of_node h.node)

theorem Holds.store (h : s.Holds names journal log db) (db' : Database) :
    (s.store db').Holds names journal log db' ∧
      FileTree.Confined names s.tree (s.store db').tree := by
  rw [h.store_eq]
  exact ⟨⟨h.place, FileTree.node?_put_self h.isDirectoryAt⟩,
    FileTree.confined_put h.isDirectoryAt (by simp)⟩

theorem Holds.close (h : s.Holds names journal log db) :
    s.close.node? names = some (.database db journal) ∧ FileTree.Confined names s.tree s.close := by
  rw [Session.close, h.place]
  cases log with
  | none => exact ⟨h.node, .refl names s.tree⟩
  | some guard =>
    exact ⟨(FileTree.touched_removeLog s.tree names guard).agreeAt.node.trans h.node,
      (FileTree.touched_removeLog s.tree names guard).confined⟩

end Session

namespace FileTree

variable {t t' : FileTree} {names : List String} {guard : Guard} {db : Database}
  {journal : Journal} {log : Option Guard} {s : Session}

theorem opened_prepareFile (hn : t.node? names = some (.database db journal))
    (h : t.prepareFile names journal log = .ok s) :
    (Schema.prepare db).answer = .ok () ∧
      s.Holds names journal log ((Schema.prepare db).final db) ∧ Confined names t s.tree ∧
        (log = none → s.tree.isFilled names logEnding = t.isFilled names logEnding) := by
  have hd := isDirectoryAt_of_database? (database?_of_node hn)
  have hput : Confined names t (t.put names (.database ((Schema.prepare db).final db) journal)) :=
    confined_put hd (by simp)
  have hnode : (t.put names (.database ((Schema.prepare db).final db) journal)).node? names =
      some (.database ((Schema.prepare db).final db) journal) := node?_put_self hd
  rw [prepareFile_of_node hn] at h
  cases ha : (Schema.prepare db).answer with
  | error e =>
    rw [ha] at h
    cases h
  | ok u =>
    rw [ha] at h
    cases h
    refine ⟨rfl, ⟨rfl, ?_⟩, ?_, ?_⟩
    · cases log with
      | none => exact hnode
      | some guard => exact (touched_fillLog _ names guard).agreeAt.node.trans hnode
    · cases log with
      | none => exact hput
      | some guard => exact hput.trans (touched_fillLog _ names guard).confined
    · rintro rfl
      exact isFilled_put t names _

/-- A file where a store is open, and can be opened again once its log is gone. -/
structure Usable (t : FileTree) (names : List String) (guard : Guard) (journal : Journal) :
    Prop where
  log : t.isBlocked names logEnding = false
  index : guard.admitsLog → t.hidesIndex names guard = false
  clear : guard.leavesJournal = false → t.isBlocked names journalEnding = false
  unlogged : guard.admitsLog = false → journal = .rollback ∧ t.admitsJournal names

theorem SameDirectories.usable (h : SameDirectories t t') (hu : t.Usable names guard journal) :
    t'.Usable names guard journal := by
  refine ⟨(h.isBlocked _ _).trans hu.log, fun hg => (h.hidesIndex _ _).trans (hu.index hg),
    fun hg => (h.isBlocked _ _).trans (hu.clear hg), fun hg => ?_⟩
  rw [h.admitsJournal]
  exact hu.unlogged hg

structure Opened (t : FileTree) (names : List String) (guard : Guard) (journal : Journal)
    (s : Session) : Prop where
  confined : Confined names t s.tree
  holds : ∃ db, (Schema.prepare db).answer = .ok () ∧
    s.Holds names journal guard.log? ((Schema.prepare db).final db)
  usable : s.tree.Usable names guard journal
  unlogged : guard.admitsLog = false → s.tree.isFilled names logEnding = false

theorem Confined.opened (h : Confined names t t') (ho : Opened t' names guard journal s) :
    Opened t names guard journal s :=
  ⟨h.trans ho.confined, ho.holds, ho.usable, ho.unlogged⟩

theorem opened_openWriting (hd : t.isDirectoryAt names = false)
    (hj : t.Admits names guard journal → guard.leavesJournal = false →
      t.isBlocked names journalEnding = false)
    (h : t.openWriting names guard db journal = .ok s) :
    ∃ journal', Opened t names guard journal' s := by
  have hw : Writes t names guard db journal (t.openWriting names guard db journal) :=
    writes_openWriting hd
  generalize t.openWriting names guard db journal = opening at h hw
  cases hw with
  | refused bars same kept => cases h
  | prepares admits confined node logged unlogged =>
    obtain ⟨hp, hholds, hrest, hfilled⟩ := opened_prepareFile node h
    have hthere := confined.trans hrest
    refine ⟨_, hthere, ⟨db, hp, hholds⟩,
      hthere.usable ⟨admits.log, admits.index, hj admits, ?_⟩, ?_⟩
    · intro hg
      obtain ⟨hrollback, hfree⟩ := admits.unlogged hg
      exact ⟨(unlogged hg).1, admits.begins hrollback hfree⟩
    · intro hg
      rw [hfilled (by simp [Guard.log?, hg])]
      exact (unlogged hg).2

theorem opened_openBlank {a : Address} (hd : t.isDirectoryAt names = false)
    (h : t.openBlank names a = .ok s) : ∃ journal, Opened t names a.guard journal s := by
  rw [openBlank] at h
  split at h
  · cases h
  · have hleft : Confined names t
        (if a.guard.leavesJournal then t else t.removeFilled names journalEnding) := by
      split
      · exact .refl names t
      · exact (touched_removeFilled t names journalEnding_mem).confined
    dsimp only at h
    generalize (if a.guard.leavesJournal then t else t.removeFilled names journalEnding) = t₁
      at hleft h
    have hremoved := hleft.trans (touched_removeFilled t₁ names logEnding_mem).confined
    have hj (ha : (t₁.removeFilled names logEnding).Admits names a.guard .rollback) :=
      isBlocked_of_admitsJournal (ha.begins rfl (isFilled_removeFilled t₁ names logEnding))
    obtain ⟨journal, ho⟩ := opened_openWriting ((hremoved.isDirectoryAt names).trans hd)
      (fun ha _ => hj ha) h
    exact ⟨journal, hremoved.opened ho⟩

theorem openReading_ne_ok (t : FileTree) (names : List String) (a : Address) (db : Database)
    (journal : Journal) (s : Session) : t.openReading names a db journal ≠ .ok s := by
  intro h
  rw [openReading] at h
  dsimp only at h
  split at h
  · cases h
  · split at h
    · cases h
    · split at h
      · split at h
        · cases h
        · cases h
      · cases h

theorem openSpoiled_ne_ok (t : FileTree) (names : List String) (a : Address) (s : Session) :
    t.openSpoiled names a ≠ .ok s := by
  intro h
  rw [openSpoiled] at h
  split at h
  · cases h
  · split at h
    · cases h
    · split at h
      · cases h
      · cases h

theorem isDirectoryAt_of_finding {a : Address} {found : Finding} (h : t.finding names a = found)
    (hf : found ≠ .noFile) : t.isDirectoryAt names = false := by
  rw [isDirectoryAt_eq_false_iff]
  intro hn
  rw [finding, hn] at h
  exact hf h.symm

theorem opened_openSettled {a : Address} (h : t.openSettled names a = .ok s)
    (hj : a.guard.leavesJournal = false → t.isBlocked names journalEnding = false) :
    a.access ≠ .reading ∧ ∃ journal, Opened t names a.guard journal s := by
  rw [openSettled] at h
  split at h
  · cases h
  · cases h
  · cases h
  · next hf =>
    refine ⟨fun ha => ?_, opened_openBlank (isDirectoryAt_of_finding hf (by simp)) h⟩
    rw [openBlank, if_pos ha] at h
    cases h
  · exact absurd h (openSpoiled_ne_ok t names a s)
  · next db journal hf =>
    split at h
    · exact absurd h (openReading_ne_ok t names a db journal s)
    · next ha =>
      exact ⟨ha, opened_openWriting (isDirectoryAt_of_finding hf (by simp)) (fun _ => hj) h⟩

theorem heedMarker_access (t : FileTree) (names : List String) (a : Address) :
    (t.heedMarker names a).access = a.access := by
  rw [heedMarker]
  split <;> rfl

structure OpenedAt (t : FileTree) (names : List String) (a : Address) (journal : Journal)
    (s : Session) : Prop extends Opened t names (t.heedMarker names a).guard journal s where
  thawed : a.frozen = false
  writes : a.access ≠ .reading
  unmarked : t.isMarked names a.guard = false

theorem opened_openGuarded {a : Address} (hf : a.frozen = false)
    (h : t.openGuarded names a = .ok s) : ∃ journal, OpenedAt t names a journal s := by
  have haccess := heedMarker_access t names a
  rw [openGuarded] at h
  split at h
  · cases h
  · next hmarked =>
    have hunmarked : t.isMarked names a.guard = false := by simpa using hmarked
    suffices hall : (t.heedMarker names a).access ≠ .reading ∧
        ∃ journal, Opened t names (t.heedMarker names a).guard journal s by
      obtain ⟨ha, journal, ho⟩ := hall
      exact ⟨journal, ho, hf, haccess ▸ ha, hunmarked⟩
    generalize t.heedMarker names a = a' at h ⊢
    dsimp only at h
    split at h
    · cases h
    · cases h
    · next hfound =>
      refine ⟨fun ha => ?_, opened_openBlank (isDirectoryAt_of_finding hfound (by simp)) h⟩
      rw [openBlank, if_pos ha] at h
      cases h
    · split at h
      · cases h
      · next hdenies =>
        have hj : a'.guard.leavesJournal = false → t.isBlocked names journalEnding = false := by
          intro hg
          rw [deniesJournal, hg] at hdenies
          simp only [Bool.not_false, Bool.true_and, Bool.or_eq_true, not_or] at hdenies
          simpa using hdenies.1
        split at h
        · exact opened_openSettled h hj
        · have hrecovered := confined_recover t names a'.guard
          obtain ⟨ha, journal, ho⟩ := opened_openSettled h fun hg =>
            (hrecovered.isBlocked names journalEnding).trans (hj hg)
          exact ⟨ha, journal, hrecovered.opened ho⟩

theorem opened_openFound {a : Address} (h : t.openFound a names = .ok s) :
    ∃ journal, OpenedAt t names a journal s := by
  rw [openFound] at h
  split at h
  · next db journal hf hfound => exact absurd h (openReading_ne_ok t names a db journal s)
  · cases h
  · cases h
  · next hf hfound =>
    split at h
    · have hd : t.isDirectoryAt names = false := isDirectoryAt_of_finding hfound (by simp)
      have hput : Confined names t (t.put names (.file .empty)) := confined_put hd (by simp)
      obtain ⟨journal, ho⟩ := opened_openGuarded hf h
      have hopened := ho.toOpened
      rw [hput.heedMarker] at hopened
      refine ⟨journal, hput.opened hopened, hf, ho.writes, ?_⟩
      rw [← hput.isMarked]
      exact ho.unmarked
    · cases h
  · next hf hfound => exact opened_openGuarded hf h

theorem opened_openStore {address : String} {a : Address} (ha : Address.read? address = some a)
    (ht : a.isTransient = false) (h : t.openStore address = .ok s) :
    (t.makeAbove address).1.Leads address a.path (t.namesOf a.path) ∧
      ∃ journal, OpenedAt (t.makeAbove address).1 (t.namesOf a.path) a journal s := by
  rcases openStore_cases ha ht rfl with ⟨e, he⟩ | ⟨hleads, ho⟩
  · rw [h] at he
    cases he
  · exact ⟨hleads, opened_openFound (ho.symm.trans h)⟩

end FileTree

end Predication
