import Predication.Proofs.FileTree.Node

namespace Predication.FileTree

variable {t t' t'' : FileTree} {names ns : List String} {node : FileNode}

structure Elsewhere (names ns : List String) : Prop where
  database : join ns ≠ join names
  beside : ∀ ending ∈ touchedEndings, join ns ≠ join (beside names ending)

theorem join_beside_inj {a b : String} (h : join (beside names a) = join (beside names b)) :
    a = b := by
  rw [join_beside, join_beside] at h
  exact String.append_right_inj _ |>.mp h

theorem elsewhere_marker (names : List String) : Elsewhere names (beside names markerEnding) := by
  refine ⟨join_beside_ne (by decide) names, fun ending he h => ?_⟩
  rw [← join_beside_inj h] at he
  exact absurd he (by decide)

/-- What is another is a file of a database or stands beside it, and no directory. -/
structure Confined (names : List String) (t t' : FileTree) : Prop extends SameDirectories t t' where
  elsewhere : ∀ ns, Elsewhere names ns → t'.node? ns = t.node? ns

theorem Confined.refl (names : List String) (t : FileTree) : Confined names t t :=
  ⟨.refl t, fun _ _ => rfl⟩

theorem Confined.trans (h : Confined names t t') (h' : Confined names t' t'') :
    Confined names t t'' :=
  ⟨h.toSameDirectories.trans h'.toSameDirectories,
    fun ns hn => (h'.elsewhere ns hn).trans (h.elsewhere ns hn)⟩

theorem Confined.isMarked (h : Confined names t t') (guard : Guard) :
    t'.isMarked names guard = t.isMarked names guard := by
  rw [FileTree.isMarked, FileTree.isMarked, h.elsewhere _ (elsewhere_marker names)]

theorem Confined.heedMarker (h : Confined names t t') (a : Address) :
    t'.heedMarker names a = t.heedMarker names a := by
  rw [FileTree.heedMarker, FileTree.heedMarker, h.elsewhere _ (elsewhere_marker names)]

theorem confined_put (h : t.isDirectoryAt names = false) (hn : node ≠ .directory) :
    Confined names t (t.put names node) :=
  ⟨sameDirectories_put h hn, fun _ he => node?_put_of_ne he.database.symm⟩

theorem Touched.confined (h : Touched names t t') : Confined names t t' :=
  ⟨h.toSameDirectories, fun ns hn => h.node ns hn.beside⟩

section

variable (t : FileTree) (names : List String)

theorem confined_playBack : Confined names t (t.playBack names) := by
  rw [playBack]
  split
  · next bytes journal hbytes hjournal =>
    have hd : t.isDirectoryAt names = false := by
      rw [isDirectoryAt_eq_false_iff]
      intro hn
      rw [bytes?, hn] at hbytes
      cases hbytes
    exact confined_put hd (by simp)
  · exact .refl names t

theorem confined_recover (guard : Guard) : Confined names t (t.recover names guard) := by
  rw [recover]
  split
  · exact (confined_playBack t names).trans
      (touched_removeBeside _ names journalEnding_mem).confined
  · exact .refl names t

end

theorem isFilled_congr (h : t'.node? (beside names logEnding) = t.node? (beside names logEnding)) :
    t'.isFilled names logEnding = t.isFilled names logEnding := by
  rw [isFilled, isFilled, h]

theorem isFilled_put (t : FileTree) (names : List String) (node : FileNode) :
    (t.put names node).isFilled names logEnding = t.isFilled names logEnding :=
  isFilled_congr (node?_put_of_ne (join_beside_ne (touchedEndings_ne logEnding_mem) names).symm)

theorem isFilled_removeJournal (t : FileTree) (names : List String) :
    (t.removeBeside names journalEnding).isFilled names logEnding = t.isFilled names logEnding := by
  refine isFilled_congr (node?_remove_of_ne fun h => ?_)
  exact absurd (join_beside_inj h) (by decide)

theorem isFilled_recover (guard : Guard) (h : t.bytes? names = none) :
    (t.recover names guard).isFilled names logEnding = t.isFilled names logEnding := by
  rw [recover]
  split
  · rw [playBack, h]
    exact isFilled_removeJournal t names
  · rfl

theorem isFilled_removeLog (t : FileTree) (names : List String) (guard : Guard) :
    (t.removeLog names guard).isFilled names logEnding = false := by
  have hgone := isFilled_removeBeside t names logEnding
  rw [removeLog]
  split
  · rw [← hgone]
    refine isFilled_congr (node?_remove_of_ne fun h => ?_)
    exact absurd (join_beside_inj h) (by decide)
  · exact hgone

end Predication.FileTree
