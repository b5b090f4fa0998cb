import Predication.Proofs.FileTree.Confined
import Predication.Proofs.FileTree.Directory
import Predication.Session.Opening

namespace Predication

def Guard.log? (g : Guard) : Option Guard :=
  if g.admitsLog then some g else none

namespace Schema

def KeepsRefused (db : Database) : Prop :=
  ∀ e, (prepare db).answer = .error e → (prepare db).final db = db

theorem keepsRefused_of_ok {db : Database} (h : (prepare db).answer = .ok ()) :
    KeepsRefused db := by
  intro e he
  rw [h] at he
  cases he

end Schema

namespace FileTree

def database? (t : FileTree) (names : List String) : Option Database :=
  match t.node? names with
  | none => some .blank
  | some (.file bytes) => if bytes.size ≤ 1 then some .blank else none
  | some (.database db _) => some db
  | _ => none

def LogsAt (t : FileTree) (names : List String) : Prop :=
  ∀ db journal, t.node? names = some (.database db journal) → journal = .log

/-- No directory is in the way of what stands beside a database. -/
structure ClearAt (t : FileTree) (names : List String) : Prop where
  journal : t.isBlocked names journalEnding = false
  log : t.isBlocked names logEnding = false
  index : t.isBlocked names logIndexEnding = false

theorem SameDirectories.clearAt {t t' : FileTree} {names : List String}
    (h : SameDirectories t t') (hc : t.ClearAt names) : t'.ClearAt names :=
  ⟨(h.isBlocked _ _).trans hc.journal, (h.isBlocked _ _).trans hc.log,
    (h.isBlocked _ _).trans hc.index⟩

inductive Leaves (t : FileTree) (names : List String) (guard : Guard) (db : Database) :
    Opening → Prop
  | refused {e : StoreError} {t' : FileTree} (same : SameDirectories t t')
      (kept : t'.database? names = some db)
      (logs : guard.admitsLog → t.LogsAt names → t'.LogsAt names) :
      Leaves t names guard db (.error (e, t'))
  | opened {s : Session} {journal : Journal} {log : Option Guard} (same : SameDirectories t s.tree)
      (place : s.place = .file names journal log)
      (node : s.tree.node? names = some (.database ((Schema.prepare db).final db) journal))
      (prepared : (Schema.prepare db).answer = .ok ())
      (logs : guard.admitsLog → t.LogsAt names → journal = .log)
      (clear : guard = .locks → s.tree.ClearAt names) : Leaves t names guard db (.ok s)

variable {t t' : FileTree} {names : List String} {guard : Guard} {db : Database}
  {journal : Journal}

theorem AgreeAt.database? (h : AgreeAt names t t') : t'.database? names = t.database? names := by
  rw [FileTree.database?, FileTree.database?, h.node]

theorem AgreeAt.logsAt (h : AgreeAt names t t') (hl : t.LogsAt names) : t'.LogsAt names := by
  rw [LogsAt, h.node]
  exact hl

theorem database?_of_node (h : t.node? names = some (.database db journal)) :
    t.database? names = some db := by
  rw [database?, h]

theorem node?_of_database? (h : t.database? names = some db) (hb : db ≠ .blank) :
    ∃ journal, t.node? names = some (.database db journal) := by
  rw [database?] at h
  split at h
  · exact absurd (Option.some.inj h).symm hb
  · split at h
    · exact absurd (Option.some.inj h).symm hb
    · cases h
  · next db' journal hn =>
    cases h
    exact ⟨journal, hn⟩
  · cases h

theorem logsAt_of_node (h : t.node? names = some (.database db journal)) :
    t.LogsAt names ↔ journal = .log := by
  constructor
  · intro hl
    exact hl db journal h
  · rintro rfl db' journal' h'
    rw [h] at h'
    cases h'
    rfl

theorem isDirectoryAt_of_database? (h : t.database? names = some db) :
    t.isDirectoryAt names = false := by
  rw [isDirectoryAt_eq_false_iff]
  intro hn
  rw [database?, hn] at h
  cases h

theorem AgreeAt.leaves_refused (h : AgreeAt names t t') (hd : t.database? names = some db)
    (e : StoreError) : Leaves t names guard db (.error (e, t')) :=
  .refused h.toSameDirectories (h.database?.trans hd) fun _ => h.logsAt

theorem leaves_refuse (hd : t.database? names = some db) : Leaves t names guard db t.refuse :=
  (AgreeAt.refl names t).leaves_refused hd .engine

theorem Leaves.of_before {guard' : Guard} {opening : Opening}
    (h : Leaves t' names guard db opening) (same : SameDirectories t t')
    (logs : guard'.admitsLog → guard.admitsLog ∧ (t.LogsAt names → t'.LogsAt names))
    (clear : guard' = .locks → guard = .locks) : Leaves t names guard' db opening := by
  cases h with
  | refused same' kept logs' =>
    exact .refused (same.trans same') kept fun hg hl => logs' (logs hg).1 ((logs hg).2 hl)
  | opened same' place node prepared logs' clear' =>
    exact .opened (same.trans same') place node prepared
      (fun hg hl => logs' (logs hg).1 ((logs hg).2 hl)) fun hg => clear' (clear hg)

theorem AgreeAt.leaves {opening : Opening} (h : AgreeAt names t t')
    (hl : Leaves t' names guard db opening) : Leaves t names guard db opening :=
  hl.of_before h.toSameDirectories (fun hg => ⟨hg, h.logsAt⟩) id

theorem isBlocked_of_admitsJournal (h : t.admitsJournal names) :
    t.isBlocked names journalEnding = false := by
  rw [admitsJournal, Bool.and_eq_true] at h
  simpa using h.2

structure Admits (t : FileTree) (names : List String) (guard : Guard) (journal : Journal) :
    Prop where
  log : t.isBlocked names logEnding = false
  index : guard.admitsLog → t.hidesIndex names guard = false
  begins : journal = .rollback → t.isFilled names logEnding = false → t.admitsJournal names
  unlogged : guard.admitsLog = false → journal = .rollback ∧ t.isFilled names logEnding = false

def begun (t : FileTree) (names : List String) (journal : Journal) : Journal :=
  if journal == .rollback && !t.isFilled names logEnding then .log else journal

inductive Writes (t : FileTree) (names : List String) (guard : Guard) (db : Database)
    (journal : Journal) : Opening → Prop
  | refused {e : StoreError} {t' : FileTree} (bars : ¬ t.Admits names guard journal)
      (same : SameDirectories t t') (kept : t'.node? names = t.node? names ∨
        t'.node? names = some (.database db (t.begun names journal))) :
      Writes t names guard db journal (.error (e, t'))
  | prepares {t' : FileTree} {journal' : Journal} (admits : t.Admits names guard journal)
      (confined : Confined names t t') (node : t'.node? names = some (.database db journal'))
      (logged : guard.admitsLog → journal' = t.begun names journal)
      (unlogged : guard.admitsLog = false →
        journal' = .rollback ∧ t'.isFilled names logEnding = false) :
      Writes t names guard db journal (t'.prepareFile names journal' guard.log?)

theorem writes_refuse (hb : ¬ t.Admits names guard journal) :
    Writes t names guard db journal t.refuse :=
  .refused hb (.refl t) (.inl rfl)

section

variable (hd : t.isDirectoryAt names = false)
include hd

theorem writes_openLogged (hg : guard.admitsLog) :
    Writes t names guard db journal (t.openLogged names guard db journal) := by
  have hlogged : ¬ guard.admitsLog = false := by simpa using hg
  rw [openLogged]
  generalize hb : (journal == .rollback && !t.isFilled names logEnding) = begins
  have hbegins : begins = true ↔ journal = .rollback ∧ t.isFilled names logEnding = false := by
    rw [← hb]
    simp
  have hbegun : t.begun names journal = if begins then .log else journal := by rw [begun, hb]
  dsimp only
  split
  · next hlog => exact writes_refuse fun ha => absurd hlog (by simp [ha.log])
  · next hlog =>
    split
    · next hadmits =>
      rw [Bool.and_eq_true, hbegins] at hadmits
      refine writes_refuse fun ha => ?_
      have := ha.begins hadmits.1.1 hadmits.1.2
      simp [this] at hadmits
    · next hadmits =>
      have hcleared : Confined names t
          (if begins then t.removeBeside names journalEnding else t) := by
        split
        · exact (touched_removeBeside t names journalEnding_mem).confined
        · exact .refl names t
      generalize (if begins then t.removeBeside names journalEnding else t) = t₁ at hcleared ⊢
      generalize (if begins then Journal.log else journal) = journal' at hbegun ⊢
      have hdir : t₁.isDirectoryAt names = false := (hcleared.isDirectoryAt names).trans hd
      have hput : Confined names t (t₁.put names (.database db journal')) :=
        hcleared.trans (confined_put hdir (by simp))
      have hnode : (t₁.put names (.database db journal')).node? names =
        some (.database db journal') := node?_put_self hdir
      generalize t₁.put names (.database db journal') = t₂ at hput hnode ⊢
      rw [hput.hidesIndex]
      split
      · next hhides =>
        have hmade := (touched_makeLog t₂ names).agreeAt
        refine .refused (fun ha => ?_) (hput.toSameDirectories.trans hmade.toSameDirectories)
          (.inr (hbegun ▸ hmade.node.trans hnode))
        rw [ha.index hg] at hhides
        cases hhides
      · next hhides =>
        have hremoved := (touched_removeLog t₂ names guard).agreeAt
        have hlog? : some guard = guard.log? := by rw [Guard.log?, if_pos hg]
        rw [hlog?]
        refine .prepares ⟨by simpa using hlog, fun _ => by simpa using hhides, ?_,
          fun h => absurd h hlogged⟩ (hput.trans (touched_removeLog t₂ names guard).confined)
          (hremoved.node.trans hnode) (fun _ => hbegun.symm) fun h => absurd h hlogged
        intro hj hf
        simpa [hbegins.mpr ⟨hj, hf⟩] using hadmits

theorem writes_openUnlogged (hg : guard.admitsLog = false) :
    Writes t names guard db journal (t.openUnlogged names db journal) := by
  rw [openUnlogged]
  split
  · next hlogged =>
    refine writes_refuse fun ha => ?_
    obtain ⟨rfl, hf⟩ := ha.unlogged hg
    simp [ha.log, hf] at hlogged
  · next hlogged =>
    push Not at hlogged
    obtain ⟨hj, hlog, hf⟩ := hlogged
    have hfree : t.isFilled names logEnding = false := by simpa using hf
    have hrollback : journal = .rollback := by
      cases journal with
      | rollback => rfl
      | log => exact absurd rfl hj
    split
    · next hadmits =>
      refine writes_refuse fun ha => ?_
      simp [ha.begins hrollback hfree] at hadmits
    · next hadmits =>
      have hcleared := (touched_removeBeside t names journalEnding_mem).confined
      have hdir := (hcleared.isDirectoryAt names).trans hd
      have hlog? : none = guard.log? := by simp [Guard.log?, hg]
      rw [hlog?]
      have hnone : ¬ guard.admitsLog := by simp [hg]
      refine .prepares ⟨by simpa using hlog, fun h => absurd h hnone,
        fun _ _ => by simpa using hadmits, fun _ => ⟨hrollback, hfree⟩⟩
        (hcleared.trans (confined_put hdir (by simp))) (node?_put_self hdir)
        (fun h => absurd h hnone) fun _ => ⟨rfl, ?_⟩
      rw [isFilled_put, isFilled_removeJournal, hfree]

theorem writes_openWriting :
    Writes t names guard db journal (t.openWriting names guard db journal) := by
  rw [openWriting]
  split
  · next hg => exact writes_openLogged hd hg
  · next hg => exact writes_openUnlogged hd (by simpa using hg)

end

theorem prepareFile_of_node (hn : t.node? names = some (.database db journal))
    (log : Option Guard) :
    t.prepareFile names journal log =
      let t' := t.put names (.database ((Schema.prepare db).final db) journal)
      match (Schema.prepare db).answer with
      | .error e => .error (e, t')
      | .ok () => .ok ⟨Place.hold (.file names journal log) t', .file names journal log⟩ := by
  rw [prepareFile, Session.run, Session.database?]
  dsimp only
  rw [hn]
  dsimp only
  cases (Schema.prepare db).answer with
  | error e => rfl
  | ok u => rfl

section

variable (hk : Schema.KeepsRefused db)
include hk

theorem leaves_prepareFile (hn : t.node? names = some (.database db journal))
    (clear : guard = .locks → t.ClearAt names) (log : Option Guard) :
    Leaves t names guard db (t.prepareFile names journal log) := by
  have hd := isDirectoryAt_of_database? (database?_of_node hn)
  have hput : SameDirectories t (t.put names (.database ((Schema.prepare db).final db) journal)) :=
    sameDirectories_put hd nofun
  have hnode : (t.put names (.database ((Schema.prepare db).final db) journal)).node? names =
      some (.database ((Schema.prepare db).final db) journal) := node?_put_self hd
  rw [prepareFile_of_node hn]
  cases ha : (Schema.prepare db).answer with
  | error e =>
    rw [hk e ha] at hput hnode
    dsimp only
    rw [hk e ha]
    refine .refused hput (database?_of_node hnode) fun _ hl => ?_
    exact (logsAt_of_node hnode).mpr ((logsAt_of_node hn).mp hl)
  | ok u =>
    have hhold : AgreeAt names (t.put names (.database ((Schema.prepare db).final db) journal))
        (Place.hold (.file names journal log)
          (t.put names (.database ((Schema.prepare db).final db) journal))) := by
      cases log with
      | none => exact .refl names _
      | some guard => exact (touched_fillLog _ names guard).agreeAt
    refine .opened (hput.trans hhold.toSameDirectories) rfl (hhold.node.trans hnode) ha
      (fun _ hl => (logsAt_of_node hn).mp hl) fun hg => ?_
    exact (hput.trans hhold.toSameDirectories).clearAt (clear hg)

theorem leaves_openWriting (hd : t.database? names = some db)
    (logs : t.LogsAt names → journal = .log ∨
      journal = .rollback ∧ t.isFilled names logEnding = false)
    (clear : guard = .locks → t.isBlocked names journalEnding = false ∨
      journal = .rollback ∧ t.isFilled names logEnding = false) :
    Leaves t names guard db (t.openWriting names guard db journal) := by
  have hbegun : t.LogsAt names → t.begun names journal = .log := by
    intro hl
    rcases logs hl with rfl | ⟨rfl, hf⟩
    · exact ite_self _
    · simp [begun, hf]
  have hw : Writes t names guard db journal (t.openWriting names guard db journal) :=
    writes_openWriting (isDirectoryAt_of_database? hd)
  generalize t.openWriting names guard db journal = opening at hw
  cases hw with
  | refused bars same kept =>
    rcases kept with hn | hn
    · have hkept : AgreeAt names t _ := ⟨same, hn⟩
      exact hkept.leaves_refused hd _
    · exact .refused same (database?_of_node hn) fun _ hl => (logsAt_of_node hn).mpr (hbegun hl)
  | prepares admits confined node logged unlogged =>
    refine (leaves_prepareFile hk node ?_ _).of_before confined.toSameDirectories
      (fun hg => ⟨hg, fun hl => (logsAt_of_node node).mpr ((logged hg).trans (hbegun hl))⟩) id
    rintro rfl
    refine confined.toSameDirectories.clearAt ⟨?_, admits.log, ?_⟩
    · rcases clear rfl with hc | ⟨hj, hf⟩
      · exact hc
      · exact isBlocked_of_admitsJournal (admits.begins hj hf)
    · simpa [hidesIndex] using admits.index rfl

omit hk in
theorem leaves_openReading (hd : t.database? names = some db) (a : Address) :
    Leaves t names guard db (t.openReading names a db journal) := by
  rw [openReading]
  dsimp only
  split
  · exact leaves_refuse hd
  · split
    · exact (touched_leaveLog t names a.guard).agreeAt.leaves_refused hd .engine
    · have hleft : AgreeAt names t
          (if !a.frozen && (journal == .log || t.isFilled names logEnding) then
            t.leaveLog names a.guard else t) := by
        split
        · exact (touched_leaveLog t names a.guard).agreeAt
        · exact .refl names t
      split
      · split
        · exact hleft.leaves_refused hd _
        · exact hleft.leaves_refused hd .engine
      · exact hleft.leaves_refused hd .engine

theorem leaves_openBlank (hd : t.database? names = some .blank) {a : Address}
    (hb : db = .blank) : Leaves t names a.guard db (t.openBlank names a) := by
  subst hb
  rw [openBlank]
  split
  · have hleft : AgreeAt names t
        (if a.guard = .nothing then t.removeFilled names journalEnding else t) := by
      split
      · exact (touched_removeFilled t names journalEnding_mem).agreeAt
      · exact .refl names t
    have hremoved := hleft.trans (touched_removeFilled _ names logEnding_mem).agreeAt
    exact hremoved.leaves_refused hd .engine
  · have hleft : AgreeAt names t
        (if a.guard.leavesJournal then t else t.removeFilled names journalEnding) := by
      split
      · exact .refl names t
      · exact (touched_removeFilled t names journalEnding_mem).agreeAt
    dsimp only
    generalize (if a.guard.leavesJournal then t else t.removeFilled names journalEnding) = t₁
      at hleft ⊢
    have hremoved := hleft.trans (touched_removeFilled t₁ names logEnding_mem).agreeAt
    have hfree : Journal.rollback = .rollback ∧
        (t₁.removeFilled names logEnding).isFilled names logEnding = false :=
      ⟨rfl, isFilled_removeFilled t₁ names logEnding⟩
    exact hremoved.leaves (leaves_openWriting hk (hremoved.database?.trans hd)
      (fun _ => .inr hfree) fun _ => .inr hfree)

end

theorem finding_cases (hd : t.database? names = some db) (a : Address) :
    (t.finding names a = .nothing ∧ t.node? names = none) ∨
      (t.finding names a = .blank ∧ db = .blank) ∨
        ∃ journal, t.finding names a = .found db journal ∧
          t.node? names = some (.database db journal) := by
  rw [database?] at hd
  rw [finding]
  split at hd
  · next hn =>
    rw [hn]
    exact .inl ⟨rfl, rfl⟩
  · next bytes hn =>
    rw [hn]
    split at hd
    · next hsize =>
      cases hd
      dsimp only
      rw [if_pos hsize]
      exact .inr (.inl ⟨rfl, rfl⟩)
    · cases hd
  · next db' journal hn =>
    cases hd
    rw [hn]
    exact .inr (.inr ⟨journal, rfl, rfl⟩)
  · cases hd

theorem bytes?_of_node (h : t.node? names = some (.database db journal)) :
    t.bytes? names = none := by
  rw [bytes?, h]

theorem leaves_openSettled (hk : Schema.KeepsRefused db) (hd : t.database? names = some db)
    {a : Address} (clear : a.access ≠ .reading → a.guard = .locks →
      t.isBlocked names journalEnding = false) :
    Leaves t names a.guard db (t.openSettled names a) := by
  rw [openSettled]
  rcases finding_cases hd a with ⟨hf, hn⟩ | ⟨hf, hb⟩ | ⟨journal, hf, hn⟩
  · rw [hf]
    exact leaves_refuse hd
  · rw [hf]
    exact leaves_openBlank hk (hb ▸ hd) hb
  · rw [hf]
    dsimp only
    split
    · exact leaves_openReading hd a
    · next ha =>
      exact leaves_openWriting hk hd (fun hl => .inl ((logsAt_of_node hn).mp hl))
        fun hg => .inl (clear ha hg)

theorem heedMarker_guard (t : FileTree) (names : List String) (a : Address) :
    (a.guard.admitsLog → (t.heedMarker names a).guard = a.guard) ∧
      (a.guard = .locks → (t.heedMarker names a).guard = .locks) := by
  rw [heedMarker]
  split
  · next h =>
    rw [h.1]
    exact ⟨by simp [Guard.admitsLog], by simp⟩
  · exact ⟨fun _ => rfl, id⟩

theorem leaves_openGuarded (hk : Schema.KeepsRefused db) (hd : t.database? names = some db)
    (a : Address) : Leaves t names a.guard db (t.openGuarded names a) := by
  rw [openGuarded]
  split
  · exact leaves_refuse hd
  · obtain ⟨hadmits, hlocks⟩ := heedMarker_guard t names a
    generalize t.heedMarker names a = a' at hadmits hlocks ⊢
    have hguard : ∀ {opening : Opening}, Leaves t names a'.guard db opening →
        Leaves t names a.guard db opening := by
      intro opening hl
      refine hl.of_before (.refl t) (fun hg => ?_) hlocks
      rw [hadmits hg]
      exact ⟨hg, id⟩
    apply hguard
    dsimp only
    rcases finding_cases hd a' with ⟨hf, hn⟩ | ⟨hf, hb⟩ | ⟨journal, hf, hn⟩
    · rw [hf]
      exact leaves_refuse hd
    · rw [hf]
      exact leaves_openBlank hk (hb ▸ hd) hb
    · rw [hf]
      dsimp only
      split
      · exact leaves_refuse hd
      · next hdenies =>
        split
        · next hreading =>
          exact leaves_openSettled hk hd fun ha => absurd hreading ha
        · have hrecovered := agreeAt_recover t names a'.guard (bytes?_of_node hn)
          refine hrecovered.leaves (leaves_openSettled hk (hrecovered.database?.trans hd) ?_)
          intro _ hg
          rw [hrecovered.isBlocked]
          cases hb : t.isBlocked names journalEnding with
          | false => rfl
          | true => exact absurd (by simp [deniesJournal, hg, hb, Guard.leavesJournal]) hdenies

theorem database?_of_none (h : t.node? names = none) : t.database? names = some .blank := by
  rw [database?, h]

theorem put_empty (hn : t.node? names = none) :
    SameDirectories t (t.put names (.file .empty)) ∧
      (t.put names (.file .empty)).node? names = some (.file .empty) := by
  have hdir : t.isDirectoryAt names = false := by
    rw [isDirectoryAt_eq_false_iff, hn]
    nofun
  exact ⟨sameDirectories_put hdir nofun, node?_put_self hdir⟩

theorem leaves_of_put_empty (hn : t.node? names = none) {opening : Opening}
    (h : (t.put names (.file .empty)).database? names = some .blank →
      Leaves (t.put names (.file .empty)) names guard .blank opening) :
    Leaves t names guard .blank opening := by
  obtain ⟨hsame, hnode⟩ := put_empty hn
  have hblank : (t.put names (.file .empty)).database? names = some .blank := by
    rw [database?, hnode]
    rfl
  refine (h hblank).of_before hsame (fun hg => ⟨hg, fun _ => ?_⟩) id
  intro db journal hdb
  rw [hnode] at hdb
  cases hdb

theorem leaves_openFound (hk : Schema.KeepsRefused db) (hd : t.database? names = some db)
    (a : Address) : Leaves t names a.guard db (t.openFound a names) := by
  rw [openFound]
  rcases finding_cases hd a with ⟨hf, hn⟩ | ⟨hf, hb⟩ | ⟨journal, hf, hn⟩
  · rw [database?_of_none hn] at hd
    cases hd
    rw [hf]
    cases a.frozen with
    | true =>
      dsimp only
      split
      · exact leaves_of_put_empty hn leaves_refuse
      · exact leaves_refuse (database?_of_none hn)
    | false =>
      dsimp only
      split
      · exact leaves_of_put_empty hn fun hblank => leaves_openGuarded hk hblank a
      · exact leaves_refuse (database?_of_none hn)
  · rw [hf]
    cases a.frozen with
    | true => exact leaves_refuse hd
    | false => exact leaves_openGuarded hk hd a
  · rw [hf]
    cases a.frozen with
    | true => exact leaves_openReading hd a
    | false => exact leaves_openGuarded hk hd a

theorem addressed?_eq_some {address : String} (h : t.addressed? address = some names) :
    ∃ a, Address.read? address = some a ∧ a.isTransient = false ∧
      names = t.namesOf a.path := by
  rw [addressed?] at h
  split at h
  · cases h
  · next a ha =>
    split at h
    · cases h
    · next ht => exact ⟨a, ha, by simpa using ht, (Option.some.inj h).symm⟩

theorem addressed?_congr (h : t'.workingDirectory = t.workingDirectory) (address : String) :
    t'.addressed? address = t.addressed? address := by
  simp only [addressed?, FileTree.namesOf, h]

theorem openAddress_cases {a : Address} (ht : a.isTransient = false)
    (hn : names = t.namesOf a.path) :
    t.openAddress a = t.refuse ∨
      (t.databaseNames? a.path = some names ∧ t.isDirectoryAt names.dropLast = true) ∧
        t.openAddress a = t.openFound a names := by
  rw [openAddress, ht]
  dsimp only
  rw [if_neg (by decide)]
  split
  · exact .inl rfl
  · next ns hns =>
    obtain rfl : ns = names := (namesOf_of_databaseNames? hns).trans hn.symm
    split
    · next hthere =>
      rw [Bool.and_eq_true] at hthere
      exact .inr ⟨⟨hns, hthere.2⟩, rfl⟩
    · exact .inl rfl

theorem openFound_of_isDirectoryAt (h : t.isDirectoryAt names) (a : Address) :
    t.openFound a names = t.refuse := by
  have hf : ∀ a, t.finding names a = .noFile := by
    intro a
    rw [finding, isDirectoryAt_iff.mp h]
  rw [openFound, hf]
  cases a.frozen with
  | true => rfl
  | false =>
    dsimp only
    rw [openGuarded]
    split
    · rfl
    · dsimp only
      rw [hf]

/-- The way of an address to its file is clear: there are the directories above it. -/
structure Leads (t : FileTree) (address path : String) (names : List String) : Prop where
  text : address.contains '\x00' = false
  above : ∀ above, Path.parent? address = some above → t.isDirectory above
  reaches : t.databaseNames? path = some names
  parent : t.isDirectoryAt names.dropLast = true

/-- Opening a store fails in the same way whatever its address leads to, or finds what is there when
the directories above it are made. -/
theorem openStore_cases {address : String} {a : Address} (ha : Address.read? address = some a)
    (ht : a.isTransient = false) (hn : names = t.namesOf a.path) :
    (∃ e, t.openStore address = .error (e, (t.makeAbove address).1)) ∨
      (t.makeAbove address).1.Leads address a.path names ∧
        t.openStore address = (t.makeAbove address).1.openFound a names := by
  have hw := (grows_makeAbove t address).workingDirectory
  rw [openStore]
  cases hm : t.makeAbove address with
  | mk t₁ made =>
    rw [hm] at hw
    cases made with
    | false => exact .inl ⟨_, rfl⟩
    | true =>
      dsimp only
      split
      · exact .inl ⟨_, rfl⟩
      · next htext =>
        rw [ha]
        have hn₁ : names = t₁.namesOf a.path := by
          rw [hn, FileTree.namesOf, FileTree.namesOf, hw]
        rcases openAddress_cases ht hn₁ with h | ⟨⟨hnames, hparent⟩, h⟩
        · exact .inl ⟨_, h⟩
        · refine .inr ⟨⟨by simpa using htext, ?_, hnames, hparent⟩, h⟩
          exact fun above habove => isDirectory_of_makeAbove hm habove

theorem openStore_of_isDirectoryAt {address : String} (h : t.addressed? address = some names)
    (hd : (t.makeAbove address).1.isDirectoryAt names) :
    ∃ e, t.openStore address = .error (e, (t.makeAbove address).1) := by
  obtain ⟨a, ha, ht, hn⟩ := addressed?_eq_some h
  rcases openStore_cases ha ht hn with he | ⟨-, ho⟩
  · exact he
  · exact ⟨.engine, ho.trans (openFound_of_isDirectoryAt hd a)⟩

theorem leaves_openStore {address : String} {a : Address} (ha : Address.read? address = some a)
    (ht : a.isTransient = false) (hn : names = t.namesOf a.path)
    (hk : Schema.KeepsRefused db) (hd : (t.makeAbove address).1.database? names = some db) :
    Leaves (t.makeAbove address).1 names a.guard db (t.openStore address) := by
  rcases openStore_cases ha ht hn with ⟨e, he⟩ | ⟨-, ho⟩
  · rw [he]
    exact (AgreeAt.refl names _).leaves_refused hd e
  · rw [ho]
    exact leaves_openFound hk hd a

end FileTree

end Predication
