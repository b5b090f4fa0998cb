import Mathlib.Data.Option.Basic
import Predication.Session.Opening
import Predication.Proofs.FileTree.Node
import Predication.Proofs.FileTree.Path

namespace Predication.FileTree

variable {t t' t'' : FileTree} {names ns : List String} {path : String}

structure Grows (t t' : FileTree) : Prop where
  workingDirectory : t'.workingDirectory = t.workingDirectory
  node : ∀ ns, t'.node? ns = t.node? ns ∨ (t.node? ns = none ∧ t'.node? ns = some .directory)

theorem Grows.refl (t : FileTree) : Grows t t :=
  ⟨rfl, fun _ => .inl rfl⟩

theorem Grows.trans (h : Grows t t') (h' : Grows t' t'') : Grows t t'' := by
  refine ⟨h'.workingDirectory.trans h.workingDirectory, fun ns => ?_⟩
  rcases h.node ns with hn | ⟨hn, hd⟩
  · rw [← hn]
    exact h'.node ns
  · rcases h'.node ns with hn' | ⟨hn', -⟩
    · exact .inr ⟨hn, hn'.trans hd⟩
    · rw [hd] at hn'
      cases hn'

theorem Grows.isDirectoryAt (h : Grows t t') (hd : t.isDirectoryAt ns) : t'.isDirectoryAt ns := by
  rw [isDirectoryAt_iff] at hd ⊢
  rcases h.node ns with hn | ⟨-, hn⟩
  · exact hn.trans hd
  · exact hn

theorem grows_put (h : t.node? ns = none) : Grows t (t.put ns .directory) := by
  refine ⟨rfl, fun ms => ?_⟩
  by_cases hm : join ms = join ns
  · have hd : t.isDirectoryAt ns = false := by
      rw [isDirectoryAt_eq_false_iff, h]
      nofun
    have hp := isPrefixOf_eq_false hd
    rw [node?, hp, if_neg (by decide)] at h
    rw [node?, node?, put, hm, KeyMap.get?_insert, if_pos rfl]
    by_cases hw : ms.isPrefixOf t.workingDirectory
    · rw [if_pos hw, if_pos hw]
      exact .inl rfl
    · rw [if_neg hw, if_neg hw]
      exact .inr ⟨h, rfl⟩
  · exact .inl (node?_put_of_ne (Ne.symm hm))

theorem walk_append (t : FileTree) (names : List String) (ps qs : List String) :
    t.walk names (ps ++ qs) =
      match t.walk names ps with
      | .error e => .error e
      | .ok names => t.walk names qs := by
  induction ps generalizing names with
  | nil => rfl
  | cons p ps ih =>
    rw [List.cons_append, walk, walk]
    cases t.step names p with
    | error e => rfl
    | ok next => exact ih next

theorem walk_eq_ok_append {ps qs : List String} :
    t.walk names (ps ++ qs) = .ok ns ↔
      ∃ middle, t.walk names ps = .ok middle ∧ t.walk middle qs = .ok ns := by
  rw [walk_append]
  cases t.walk names ps with
  | error e => simp
  | ok middle => simp

theorem walk_singleton (piece : String) : t.walk names [piece] = t.step names piece := by
  rw [walk]
  cases t.step names piece with
  | error e => rfl
  | ok next => rfl

theorem isDirectoryAt_of_step {piece : String} (h : t.step names piece = .ok ns) :
    t.isDirectoryAt names := by
  rw [isDirectoryAt_iff]
  rw [step] at h
  split at h
  · cases h
  · next hn => exact hn
  · cases h

theorem step_of_isDirectoryAt {piece : String} (h : t.step names piece = .ok ns)
    (h' : t'.isDirectoryAt names) : t'.step names piece = .ok ns := by
  rw [step, isDirectoryAt_iff.mp (isDirectoryAt_of_step h)] at h
  rw [step, isDirectoryAt_iff.mp h']
  exact h

theorem step_idle {piece : String} (hp : Path.isIdle piece) (h : t.isDirectoryAt names) :
    t.step names piece = .ok names := by
  rw [step, isDirectoryAt_iff.mp h]
  exact if_pos hp

section

variable (hkept : ∀ ns, t.isDirectoryAt ns → t'.isDirectoryAt ns)
include hkept

theorem walk_of_kept {pieces : List String} (h : t.walk names pieces = .ok ns) :
    t'.walk names pieces = .ok ns := by
  induction pieces generalizing names with
  | nil => exact h
  | cons p ps ih =>
    rw [walk] at h ⊢
    cases hs : t.step names p with
    | error e =>
      rw [hs] at h
      cases h
    | ok next =>
      rw [hs] at h
      rw [step_of_isDirectoryAt hs (hkept names (isDirectoryAt_of_step hs))]
      exact ih h

end

theorem walk_idle {pieces : List String} (hp : ∀ p ∈ pieces, Path.isIdle p)
    (h : t.isDirectoryAt names) : t.walk names pieces = .ok names := by
  induction pieces with
  | nil => rfl
  | cons p ps ih =>
    obtain ⟨hidle, hrest⟩ := List.forall_mem_cons.mp hp
    rw [walk, step_idle hidle h]
    exact ih hrest

theorem eq_of_walk_idle {pieces : List String} (hp : ∀ p ∈ pieces, Path.isIdle p)
    (h : t.walk names pieces = .ok ns) : ns = names := by
  cases pieces with
  | nil =>
    cases h
    rfl
  | cons p ps =>
    have hd : t.isDirectoryAt names := by
      rw [walk] at h
      cases hs : t.step names p with
      | error e =>
        rw [hs] at h
        cases h
      | ok next => exact isDirectoryAt_of_step hs
    rw [walk_idle hp hd] at h
    exact (Except.ok.inj h).symm

theorem exists_last_piece (pieces : List String) :
    ∃ blanks, (∀ p ∈ blanks, Path.isIdle p) ∧
      pieces = (pieces.reverse.dropWhile String.isEmpty).reverse ++ blanks := by
  have h := Path.reverse_eq_dropWhile_append String.isEmpty pieces.reverse
  rw [List.reverse_reverse] at h
  refine ⟨_, fun p hp => ?_, h⟩
  have he := Path.forall_mem_takeWhile String.isEmpty pieces.reverse p hp
  rw [Path.isIdle, he]
  rfl

theorem start_congr (h : t'.workingDirectory = t.workingDirectory) (path : String) :
    t'.start path = t.start path := by
  rw [start, start, h]

theorem isDirectory_iff {pieces : List String} (h : t.start path = .ok (names, pieces)) :
    t.isDirectory path ↔ ∃ ns, t.walk names pieces = .ok ns ∧ t.isDirectoryAt ns := by
  rw [isDirectory, locate, h]
  dsimp only
  cases hw : t.walk names pieces with
  | error e => simp
  | ok ns =>
    dsimp only
    by_cases hn : (t.node? ns).isSome
    · simp [hn]
    · have hd : t.isDirectoryAt ns = false := by
        rw [isDirectoryAt_eq_false_iff]
        intro he
        simp [he] at hn
      simp [hn, hd]

theorem start_of_isDirectory (h : t.isDirectory path) :
    ∃ names pieces, t.start path = .ok (names, pieces) := by
  rw [isDirectory, locate] at h
  cases hs : t.start path with
  | error e =>
    rw [hs] at h
    cases h
  | ok start => exact ⟨start.1, start.2, rfl⟩

theorem isDirectory_of_kept (hw : t'.workingDirectory = t.workingDirectory)
    (hkept : ∀ ns, t.isDirectoryAt ns → t'.isDirectoryAt ns) (h : t.isDirectory path) :
    t'.isDirectory path := by
  obtain ⟨names, pieces, hs⟩ := start_of_isDirectory h
  obtain ⟨ns, hwalk, hd⟩ := (isDirectory_iff hs).mp h
  rw [isDirectory_iff ((start_congr hw path).trans hs)]
  exact ⟨ns, walk_of_kept hkept hwalk, hkept ns hd⟩

theorem makeDirectory_eq_ok (h : t.makeDirectory path = .ok t') :
    Grows t t' ∧ t'.isDirectory path := by
  rw [makeDirectory] at h
  cases hs : t.start path with
  | error e =>
    rw [hs] at h
    cases h
  | ok start =>
    obtain ⟨names, pieces⟩ := start
    rw [hs] at h
    dsimp only at h
    obtain ⟨blanks, hblanks, hpieces⟩ := exists_last_piece pieces
    generalize (pieces.reverse.dropWhile String.isEmpty).reverse = above at h hpieces
    split at h
    · cases h
    · cases h
    · next next last hwalk hlast =>
      split at h
      · cases h
      · next ns hstep =>
        split at h
        · cases h
        · next hn =>
          cases h
          have hnone : t.node? ns = none := by simpa using hn
          have hg : Grows t (t.put ns .directory) := grows_put hnone
          have hnew : (t.put ns .directory).isDirectoryAt ns := by
            rw [isDirectoryAt_iff]
            exact node?_put_self (by simp [isDirectoryAt_eq_false_iff, hnone])
          have hlead : t.walk names (above.dropLast ++ [last]) = .ok ns :=
            walk_eq_ok_append.mpr ⟨next, hwalk, (walk_singleton last).trans hstep⟩
          rw [List.dropLast_append_getLast? last hlast] at hlead
          have hstart : (t.put ns .directory).start path = .ok (names, pieces) :=
            (start_congr rfl path).trans hs
          refine ⟨hg, (isDirectory_iff hstart).mpr ⟨ns, ?_, hnew⟩⟩
          rw [hpieces]
          exact walk_eq_ok_append.mpr
            ⟨ns, walk_of_kept (fun ms => hg.isDirectoryAt) hlead, walk_idle hblanks hnew⟩

theorem makeDirectory_of_isDirectory (h : t.isDirectory path) :
    t.makeDirectory path = .error .present := by
  obtain ⟨names, pieces, hs⟩ := start_of_isDirectory h
  obtain ⟨ns, hwalk, hd⟩ := (isDirectory_iff hs).mp h
  obtain ⟨blanks, hblanks, hpieces⟩ := exists_last_piece pieces
  rw [makeDirectory, hs]
  dsimp only
  generalize (pieces.reverse.dropWhile String.isEmpty).reverse = above at hpieces ⊢
  rcases List.eq_nil_or_concat above with rfl | ⟨front, last, rfl⟩
  · rfl
  · rw [List.concat_eq_append] at hpieces ⊢
    rw [hpieces] at hwalk
    obtain ⟨named, hnamed, hblank⟩ := walk_eq_ok_append.mp hwalk
    obtain ⟨next, hnext, hstep⟩ := walk_eq_ok_append.mp hnamed
    rw [walk_singleton] at hstep
    obtain rfl := eq_of_walk_idle hblanks hblank
    rw [List.dropLast_concat, List.getLast?_concat, hnext]
    dsimp only
    rw [hstep]
    dsimp only
    rw [isDirectoryAt_iff.mp hd]
    rfl

theorem grows_makeAll (t : FileTree) (paths : List String) : Grows t (t.makeAll paths).1 := by
  induction paths generalizing t with
  | nil => exact .refl t
  | cons path above ih =>
    rw [makeAll]
    split
    · next t' hm => exact (makeDirectory_eq_ok hm).1
    · split
      · next t' hall =>
        have := ih t
        rwa [hall] at this
      · next t' hall =>
        have hg := ih t
        rw [hall] at hg
        split
        · next t'' hm => exact hg.trans (makeDirectory_eq_ok hm).1
        · exact hg
    · exact .refl t

theorem isDirectory_of_makeAll {above : List String} (h : t.makeAll (path :: above) = (t', true)) :
    t'.isDirectory path := by
  rw [makeAll] at h
  split at h
  · next t'' hm =>
    cases h
    exact (makeDirectory_eq_ok hm).2
  · split at h
    · cases h
    · split at h
      · next t'' hm =>
        cases h
        exact (makeDirectory_eq_ok hm).2
      · simp only [Prod.mk.injEq] at h
        obtain ⟨rfl, h⟩ := h
        exact h
  · simp only [Prod.mk.injEq] at h
    obtain ⟨rfl, h⟩ := h
    exact h

theorem makeAll_of_isDirectory (h : t.isDirectory path) (above : List String) :
    t.makeAll (path :: above) = (t, true) := by
  rw [makeAll, makeDirectory_of_isDirectory h]
  dsimp only
  rw [h]

theorem ancestors_cases (path : String) :
    (Path.parent? path = none ∧ Path.ancestors (Path.pieces path).length path = []) ∨
    ∃ above more, Path.parent? path = some above ∧
      Path.ancestors (Path.pieces path).length path = above :: more := by
  cases hp : Path.parent? path with
  | none =>
    left
    cases (Path.pieces path).length with
    | zero => exact ⟨rfl, rfl⟩
    | succ n => exact ⟨rfl, by rw [Path.ancestors, hp]⟩
  | some above =>
    right
    cases hn : (Path.pieces path).length with
    | zero =>
      rw [Path.parent?, List.eq_nil_of_length_eq_zero hn] at hp
      cases hp
    | succ n => exact ⟨above, _, rfl, by rw [Path.ancestors, hp]⟩

theorem grows_makeAbove (t : FileTree) (path : String) : Grows t (t.makeAbove path).1 :=
  grows_makeAll t _

theorem isDirectory_of_makeAbove {above : String} (h : t.makeAbove path = (t', true))
    (hp : Path.parent? path = some above) : t'.isDirectory above := by
  rw [makeAbove] at h
  rcases ancestors_cases path with ⟨hn, -⟩ | ⟨found, more, hs, ha⟩
  · rw [hn] at hp
    cases hp
  · rw [hs] at hp
    cases hp
    rw [ha] at h
    exact isDirectory_of_makeAll h

theorem makeAbove_of_isDirectory
    (h : ∀ above, Path.parent? path = some above → t.isDirectory above) :
    t.makeAbove path = (t, true) := by
  rw [makeAbove]
  rcases ancestors_cases path with ⟨-, ha⟩ | ⟨above, more, hs, ha⟩
  · rw [ha]
    rfl
  · rw [ha]
    exact makeAll_of_isDirectory (h above hs) more

theorem eq_of_step {piece : String} (h : t.step names piece = .ok ns) :
    ns = if Path.isIdle piece then names else if piece = ".." then names.dropLast
      else names ++ [piece] := by
  rw [step, isDirectoryAt_iff.mp (isDirectoryAt_of_step h)] at h
  dsimp only at h
  split at h
  · next hi =>
    rw [if_pos hi]
    exact (Except.ok.inj h).symm
  · next hi =>
    rw [if_neg hi]
    split at h
    · next hd =>
      rw [if_pos hd]
      exact (Except.ok.inj h).symm
    · next hd =>
      rw [if_neg hd]
      split at h
      · cases h
      · exact (Except.ok.inj h).symm

theorem extend?_eq_some {piece : String} (h : t.extend? names piece = some ns) :
    ns = if Path.isIdle piece then names else if piece = ".." then names.dropLast
      else names ++ [piece] := by
  rw [extend?] at h
  split at h
  · next hi =>
    rw [if_pos hi]
    exact (Option.some.inj h).symm
  · next hi =>
    split at h
    · next hd =>
      rw [if_neg hi, if_pos hd]
      exact (Option.some.inj h).symm
    · next hd =>
      split at h
      · cases h
      · split at h
        · next next hs =>
          cases h
          exact eq_of_step hs
        · rw [if_neg hi, if_neg hd]
          exact (Option.some.inj h).symm
        · cases h

theorem foldlM_extend?_eq_some {pieces : List String}
    (h : pieces.foldlM t.extend? names = some ns) :
    ns = pieces.foldl (fun names piece =>
      if Path.isIdle piece then names
      else if piece = ".." then names.dropLast
      else names ++ [piece]) names := by
  induction pieces generalizing names with
  | nil => exact (Option.some.inj h).symm
  | cons p ps ih =>
    rw [List.foldlM_cons] at h
    obtain ⟨next, hnext, hrest⟩ := Option.bind_eq_some_iff.mp h
    rw [List.foldl_cons, ← extend?_eq_some hnext]
    exact ih hrest

/-- Where a path leads does not depend on what is in the tree. -/
theorem namesOf_of_databaseNames? (h : t.databaseNames? path = some names) :
    names = t.namesOf path := by
  simp only [databaseNames?, Option.bind_eq_bind, Option.bind_eq_some_iff] at h
  obtain ⟨ns, hns, -, -, -, -, he⟩ := h
  cases he
  exact foldlM_extend?_eq_some hns

theorem extend?_congr (h : t.isDirectoryAt names) (h' : t'.isDirectoryAt names) (piece : String) :
    t'.extend? names piece = t.extend? names piece := by
  rw [extend?, extend?, step, step, isDirectoryAt_iff.mp h, isDirectoryAt_iff.mp h']

theorem extend?_of_step {piece : String} {next : List String} (h : t.step names piece = .ok ns)
    (he : t.extend? names piece = some next) : next = ns :=
  (extend?_eq_some he).trans (eq_of_step h).symm

theorem foldlM_extend?_idle {pieces : List String} (hp : ∀ p ∈ pieces, Path.isIdle p) :
    pieces.foldlM t.extend? names = some names := by
  induction pieces with
  | nil => rfl
  | cons p ps ih =>
    obtain ⟨hidle, hrest⟩ := List.forall_mem_cons.mp hp
    rw [List.foldlM_cons, extend?, if_pos hidle]
    exact ih hrest

theorem isDirectoryAt_start (t : FileTree) (path : String) :
    t.isDirectoryAt (if Path.isAbsolute path then [] else t.workingDirectory) := by
  rw [isDirectoryAt_iff, node?, if_pos]
  split
  · rfl
  · simp

theorem start_eq_ok {pieces : List String} (h : t.start path = .ok (names, pieces)) :
    names = (if Path.isAbsolute path then [] else t.workingDirectory) ∧
      pieces = Path.pieces path := by
  rw [start] at h
  split at h
  · cases h
  · split at h
    · cases h
    · split at h
      · cases h
      · cases h
        exact ⟨rfl, rfl⟩

theorem foldlM_extend?_tail (h : t.isDirectoryAt names) (h' : t'.isDirectoryAt names)
    {idles tail : List String} (hi : ∀ p ∈ idles, Path.isIdle p)
    (ht : ∀ p ∈ tail.tail, Path.isIdle p) :
    (idles ++ tail).foldlM t'.extend? names = (idles ++ tail).foldlM t.extend? names := by
  rw [List.foldlM_append, List.foldlM_append, foldlM_extend?_idle hi, foldlM_extend?_idle hi]
  cases tail with
  | nil => rfl
  | cons last rest =>
    simp only [Option.bind_eq_bind, Option.bind_some]
    rw [List.foldlM_cons, List.foldlM_cons, extend?_congr h h']
    cases t.extend? names last with
    | none => rfl
    | some next => exact (foldlM_extend?_idle ht).trans (foldlM_extend?_idle ht).symm

section

variable (hkept : ∀ ns, t.isDirectoryAt ns → t'.isDirectoryAt ns)
include hkept

theorem foldlM_extend?_of_walk {pieces : List String} (h : t.walk names pieces = .ok ns) :
    pieces.foldlM t'.extend? names = pieces.foldlM t.extend? names ∧
      ∀ next, pieces.foldlM t.extend? names = some next → next = ns := by
  induction pieces generalizing names with
  | nil =>
    cases h
    exact ⟨rfl, fun next hn => (Option.some.inj hn).symm⟩
  | cons p ps ih =>
    rw [walk] at h
    cases hs : t.step names p with
    | error e =>
      rw [hs] at h
      cases h
    | ok middle =>
      rw [hs] at h
      have hd := isDirectoryAt_of_step hs
      rw [List.foldlM_cons, List.foldlM_cons, extend?_congr hd (hkept names hd)]
      cases he : t.extend? names p with
      | none => exact ⟨rfl, nofun⟩
      | some next =>
        obtain rfl := extend?_of_step hs he
        exact ih h

/-- If there is a directory above it, the path of a database leads where it led as long as no
directory is lost. -/
theorem databaseNames?_of_kept (hw : t'.workingDirectory = t.workingDirectory)
    (habove : ∀ above, Path.parent? path = some above → t.isDirectory above) :
    t'.databaseNames? path = t.databaseNames? path := by
  have hfold : (Path.pieces path).foldlM t'.extend?
        (if Path.isAbsolute path then [] else t.workingDirectory) =
      (Path.pieces path).foldlM t.extend?
        (if Path.isAbsolute path then [] else t.workingDirectory) := by
    have hstart := isDirectoryAt_start t path
    rcases Path.parent?_cases path with
      ⟨-, idles, tail, hp, hi, ht⟩ | ⟨above, idles, tail, ha, habs, hp, hi, ht⟩
    · rw [hp]
      exact foldlM_extend?_tail hstart (hkept _ hstart) hi ht
    · obtain ⟨names, pieces, hs⟩ := start_of_isDirectory (habove above ha)
      obtain ⟨ns, hwalk, hd⟩ := (isDirectory_iff hs).mp (habove above ha)
      obtain ⟨rfl, rfl⟩ := start_eq_ok hs
      rw [habs] at hwalk
      obtain ⟨hsame, hnext⟩ := foldlM_extend?_of_walk hkept hwalk
      rw [hp, List.foldlM_append, List.foldlM_append, hsame]
      cases hf : (Path.pieces above).foldlM t.extend?
          (if Path.isAbsolute path then [] else t.workingDirectory) with
      | none => rfl
      | some next =>
        obtain rfl := hnext next hf
        exact foldlM_extend?_tail hd (hkept _ hd) hi ht
  rw [databaseNames?, databaseNames?, hw]
  simp only [hfold]

end

end Predication.FileTree
