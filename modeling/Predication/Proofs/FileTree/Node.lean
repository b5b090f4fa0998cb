import Predication.FileTree.Beside
import Mathlib.Data.List.Basic

namespace Predication.FileTree

variable {t t' t'' : FileTree} {names ns : List String} {node : FileNode}

theorem join_beside (names : List String) (ending : String) :
    join (beside names ending) = join names ++ ending := by
  rcases List.eq_nil_or_concat names with rfl | ⟨front, last, rfl⟩
  · simp [beside, join]
  · simp only [beside, join, List.concat_eq_append, List.dropLast_concat, List.getLastD_concat]
    by_cases hf : front = []
    · simp [hf]
    · rw [String.intercalate_append_of_ne_nil hf (by simp),
        String.intercalate_append_of_ne_nil hf (by simp)]
      simp only [String.intercalate_singleton, String.append_assoc]

theorem join_beside_ne {ending : String} (h : ending ≠ "") (names : List String) :
    join (beside names ending) ≠ join names := by
  intro he
  rw [join_beside] at he
  exact h (by simpa using he)

theorem isDirectoryAt_iff : t.isDirectoryAt names = true ↔ t.node? names = some .directory := by
  rw [isDirectoryAt]
  split
  · next h => simp [h]
  · next h => simpa using fun he => h he

theorem isDirectoryAt_eq_false_iff :
    t.isDirectoryAt names = false ↔ t.node? names ≠ some .directory := by
  rw [Ne, ← isDirectoryAt_iff, Bool.not_eq_true]

theorem isPrefixOf_eq_false (h : t.isDirectoryAt names = false) :
    names.isPrefixOf t.workingDirectory = false := by
  rw [isDirectoryAt_eq_false_iff, node?] at h
  by_contra hp
  rw [Bool.not_eq_false] at hp
  rw [if_pos hp] at h
  exact h rfl

theorem node?_put_self (h : t.isDirectoryAt names = false) :
    (t.put names node).node? names = some node := by
  have hp := isPrefixOf_eq_false h
  rw [node?, put, hp, if_neg (by decide), KeyMap.get?_insert, if_pos rfl]

theorem node?_put_of_ne (h : join ns ≠ join names) :
    (t.put ns node).node? names = t.node? names := by
  rw [node?, node?, put, KeyMap.get?_insert, if_neg (Ne.symm h)]

theorem node?_remove_of_ne (h : join ns ≠ join names) :
    (t.remove ns).node? names = t.node? names := by
  rw [remove]
  split
  · rfl
  · rfl
  · rw [node?, node?, KeyMap.get?_erase, if_neg (Ne.symm h)]

theorem node?_remove_self (h : t.isDirectoryAt names = false) :
    (t.remove names).node? names = none := by
  have hp := isPrefixOf_eq_false h
  rw [remove]
  split
  · next hn => exact hn
  · next hn => exact absurd hn (isDirectoryAt_eq_false_iff.mp h)
  · rw [node?, hp, if_neg (by decide), KeyMap.get?_erase, if_pos rfl]

structure SameDirectories (t t' : FileTree) : Prop where
  workingDirectory : t'.workingDirectory = t.workingDirectory
  isDirectoryAt : ∀ ns, t'.isDirectoryAt ns = t.isDirectoryAt ns

theorem SameDirectories.refl (t : FileTree) : SameDirectories t t :=
  ⟨rfl, fun _ => rfl⟩

theorem SameDirectories.symm (h : SameDirectories t t') : SameDirectories t' t :=
  ⟨h.workingDirectory.symm, fun ns => (h.isDirectoryAt ns).symm⟩

theorem SameDirectories.trans (h : SameDirectories t t') (h' : SameDirectories t' t'') :
    SameDirectories t t'' :=
  ⟨h'.workingDirectory.trans h.workingDirectory,
    fun ns => (h'.isDirectoryAt ns).trans (h.isDirectoryAt ns)⟩

theorem SameDirectories.isBlocked (h : SameDirectories t t') (names : List String)
    (ending : String) : t'.isBlocked names ending = t.isBlocked names ending :=
  h.isDirectoryAt (beside names ending)

theorem SameDirectories.hidesIndex (h : SameDirectories t t') (names : List String)
    (guard : Guard) : t'.hidesIndex names guard = t.hidesIndex names guard := by
  rw [FileTree.hidesIndex, FileTree.hidesIndex, h.isBlocked]

theorem SameDirectories.admitsJournal (h : SameDirectories t t') (names : List String) :
    t'.admitsJournal names = t.admitsJournal names := by
  rw [FileTree.admitsJournal, FileTree.admitsJournal, h.isBlocked]

/-- A change under one key keeps the directories if there is none under it before or after. -/
theorem sameDirectories_of_key (ns : List String) (hw : t'.workingDirectory = t.workingDirectory)
    (hother : ∀ ms, join ms ≠ join ns → t'.node? ms = t.node? ms)
    (hbefore : t.nodes.get? (join ns) ≠ some .directory)
    (hafter : t'.nodes.get? (join ns) ≠ some .directory) : SameDirectories t t' := by
  refine ⟨hw, fun ms => ?_⟩
  by_cases hm : join ms = join ns
  · rw [isDirectoryAt, isDirectoryAt, node?, node?, hw, hm]
    by_cases hp : ms.isPrefixOf t.workingDirectory
    · rw [if_pos hp, if_pos hp]
    · rw [if_neg hp, if_neg hp]
      split
      · next h => exact absurd h hafter
      · rfl
  · rw [isDirectoryAt, isDirectoryAt, hother ms hm]

theorem get?_join_ne_directory (h : t.isDirectoryAt ns = false) :
    t.nodes.get? (join ns) ≠ some .directory := by
  have hp := isPrefixOf_eq_false h
  rw [isDirectoryAt_eq_false_iff, node?, hp, if_neg (by decide)] at h
  exact h

theorem sameDirectories_put (h : t.isDirectoryAt ns = false) (hn : node ≠ .directory) :
    SameDirectories t (t.put ns node) := by
  refine sameDirectories_of_key ns rfl (fun ms hm => node?_put_of_ne (Ne.symm hm))
    (get?_join_ne_directory h) ?_
  rw [put, KeyMap.get?_insert, if_pos rfl]
  exact fun he => hn (Option.some.inj he)

theorem sameDirectories_remove (t : FileTree) (ns : List String) :
    SameDirectories t (t.remove ns) := by
  cases h : t.isDirectoryAt ns with
  | true =>
    rw [remove, isDirectoryAt_iff.mp h]
    exact .refl t
  | false =>
    have hbefore := get?_join_ne_directory h
    rw [remove]
    split
    · exact .refl t
    · exact .refl t
    · refine sameDirectories_of_key ns rfl ?_ hbefore ?_
      · intro ms hm
        rw [node?, node?, KeyMap.get?_erase, if_neg hm]
      · rw [KeyMap.get?_erase, if_pos rfl]
        exact nofun

structure AgreeAt (names : List String) (t t' : FileTree) : Prop extends SameDirectories t t' where
  node : t'.node? names = t.node? names

theorem AgreeAt.refl (names : List String) (t : FileTree) : AgreeAt names t t :=
  ⟨.refl t, rfl⟩

theorem AgreeAt.trans (h : AgreeAt names t t') (h' : AgreeAt names t' t'') :
    AgreeAt names t t'' :=
  ⟨h.toSameDirectories.trans h'.toSameDirectories, h'.node.trans h.node⟩

def touchedEndings : List String :=
  [journalEnding, logEnding, logIndexEnding]

theorem journalEnding_mem : journalEnding ∈ touchedEndings := by decide

theorem logEnding_mem : logEnding ∈ touchedEndings := by decide

theorem logIndexEnding_mem : logIndexEnding ∈ touchedEndings := by decide

theorem touchedEndings_ne {ending : String} (h : ending ∈ touchedEndings) : ending ≠ "" := by
  rintro rfl
  exact absurd h (by decide)

structure Touched (names : List String) (t t' : FileTree) : Prop extends SameDirectories t t' where
  node : ∀ ns, (∀ ending ∈ touchedEndings, join ns ≠ join (beside names ending)) →
    t'.node? ns = t.node? ns

theorem Touched.refl (names : List String) (t : FileTree) : Touched names t t :=
  ⟨.refl t, fun _ _ => rfl⟩

theorem Touched.trans (h : Touched names t t') (h' : Touched names t' t'') :
    Touched names t t'' :=
  ⟨h.toSameDirectories.trans h'.toSameDirectories,
    fun ns hn => (h'.node ns hn).trans (h.node ns hn)⟩

theorem Touched.agreeAt (h : Touched names t t') : AgreeAt names t t' :=
  ⟨h.toSameDirectories, h.node names fun _ he => (join_beside_ne (touchedEndings_ne he) names).symm⟩

section

variable (t : FileTree) (names : List String)

theorem touched_removeBeside {ending : String} (h : ending ∈ touchedEndings) :
    Touched names t (t.removeBeside names ending) :=
  ⟨sameDirectories_remove t _, fun _ hn => node?_remove_of_ne (hn ending h).symm⟩

theorem touched_removeFilled {ending : String} (h : ending ∈ touchedEndings) :
    Touched names t (t.removeFilled names ending) := by
  rw [removeFilled]
  split
  · exact touched_removeBeside t names h
  · exact .refl names t

theorem touched_putBeside {ending : String} (h : ending ∈ touchedEndings) (bytes : ByteArray) :
    Touched names t (t.putBeside names ending bytes) := by
  rw [putBeside]
  split
  · exact .refl names t
  · next hb =>
    exact ⟨sameDirectories_put (Bool.not_eq_true _ ▸ hb) (by simp),
      fun _ hn => node?_put_of_ne (hn ending h).symm⟩

theorem touched_makeLog : Touched names t (t.makeLog names) := by
  rw [makeLog]
  split
  · exact .refl names t
  · exact touched_putBeside t names logEnding_mem _

theorem touched_leaveLog (guard : Guard) : Touched names t (t.leaveLog names guard) := by
  rw [leaveLog]
  split
  · exact .refl names t
  · dsimp only
    split
    · exact touched_makeLog t names
    · exact (touched_makeLog t names).trans (touched_putBeside _ names logIndexEnding_mem _)

theorem touched_fillLog (guard : Guard) : Touched names t (t.fillLog names guard) := by
  rw [fillLog]
  split
  · exact (touched_putBeside t names logEnding_mem _).trans
      (touched_putBeside _ names logIndexEnding_mem _)
  · exact touched_putBeside t names logEnding_mem _

theorem touched_removeLog (guard : Guard) : Touched names t (t.removeLog names guard) := by
  rw [removeLog]
  split
  · exact (touched_removeBeside t names logEnding_mem).trans
      (touched_removeBeside _ names logIndexEnding_mem)
  · exact touched_removeBeside t names logEnding_mem

theorem agreeAt_recover (guard : Guard) (h : t.bytes? names = none) :
    AgreeAt names t (t.recover names guard) := by
  rw [recover]
  split
  · rw [playBack, h]
    exact (touched_removeBeside t names journalEnding_mem).agreeAt
  · exact .refl names t

theorem isFilled_removeBeside (ending : String) :
    (t.removeBeside names ending).isFilled names ending = false := by
  cases hd : t.isDirectoryAt (beside names ending) with
  | true =>
    rw [isFilled, removeBeside, remove, isDirectoryAt_iff.mp hd]
    dsimp only
    rw [isDirectoryAt_iff.mp hd]
  | false => rw [isFilled, removeBeside, node?_remove_self hd]

theorem isFilled_removeFilled (ending : String) :
    (t.removeFilled names ending).isFilled names ending = false := by
  rw [removeFilled]
  split
  · exact isFilled_removeBeside t names ending
  · next h => simpa using h

end

end Predication.FileTree
