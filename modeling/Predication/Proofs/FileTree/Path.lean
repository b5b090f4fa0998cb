import Predication.FileTree.Path
import Mathlib.Data.String.Basic
import Mathlib.Data.List.Basic

namespace Predication.Path

open String (utf8Len)

theorem atEnd_iff_of_valid (front rest : List Char) :
    String.Pos.Raw.atEnd (String.ofList (front ++ rest)) ⟨utf8Len front⟩ = true ↔ rest = [] := by
  rw [String.atEnd_iff, String.rawEndPos_ofList, String.utf8Len_append, String.Pos.Raw.mk_le_mk,
    ← String.utf8Len_eq_zero]
  omega

theorem splitOnAux_of_valid (front piece rest : List Char) (done : List String) :
    String.splitOnAux (String.ofList (front ++ piece ++ rest)) "/" ⟨utf8Len front⟩
        ⟨utf8Len (front ++ piece)⟩ 0 done =
      done.reverse ++ (List.splitOnPPrepend (· == '/') rest piece.reverse).map String.ofList := by
  have hend := atEnd_iff_of_valid (front ++ piece) rest
  have hcut := String.extract_of_valid front piece rest
  rw [← String.utf8Len_append] at hcut
  rw [String.splitOnAux]
  cases rest with
  | nil =>
    rw [if_pos (hend.mpr rfl), hcut]
    simp
  | cons c rest =>
    have hget := String.get_of_valid (front ++ piece) (c :: rest)
    have hnext := String.next_of_valid (front ++ piece) c rest
    have hsize : utf8Len (front ++ piece ++ [c]) = utf8Len (front ++ piece) + c.utf8Size := by
      simp [Nat.add_assoc]
    have hslash : String.Pos.Raw.get "/" 0 = '/' := by decide
    have hstep : String.Pos.Raw.next "/" 0 = ⟨1⟩ := by decide
    rw [if_neg fun h => List.cons_ne_nil c rest (hend.mp h), hget]
    by_cases hc : c = '/'
    · subst hc
      have ih := splitOnAux_of_valid (front ++ piece ++ ['/']) [] rest (String.ofList piece :: done)
      rw [List.splitOnPPrepend_cons_pos (by decide)]
      rw [List.append_nil, hsize, List.append_assoc, List.singleton_append] at ih
      rw [if_pos (by rw [hslash]; rfl), hnext, hstep, if_pos (by decide)]
      have hback : (⟨utf8Len (front ++ piece) + '/'.utf8Size⟩ : String.Pos.Raw).unoffsetBy ⟨1⟩ =
        ⟨utf8Len (front ++ piece)⟩ := rfl
      rw [hback, hcut, ih]
      simp
    · have ih := splitOnAux_of_valid front (piece ++ [c]) rest done
      have hstay : (⟨utf8Len (front ++ piece)⟩ : String.Pos.Raw).unoffsetBy 0 =
        ⟨utf8Len (front ++ piece)⟩ := rfl
      rw [← List.append_assoc, hsize, List.append_assoc, List.singleton_append] at ih
      rw [List.splitOnPPrepend_cons_neg (by simpa using hc), if_neg (by simpa [hslash] using hc),
        hstay, hnext, ih]
      simp
theorem pieces_eq (path : String) :
    pieces path = (path.toList.splitOn '/').map String.ofList := by
  have h := splitOnAux_of_valid [] [] path.toList []
  rw [List.nil_append, List.nil_append, String.ofList_toList] at h
  rw [pieces, String.splitOn, if_neg (by decide), List.splitOn_eq_splitOnP]
  exact h

theorem notMem_of_mem_splitOn {c : Char} {cs part : List Char} (h : part ∈ cs.splitOn c) :
    c ∉ part := by
  induction cs generalizing part with
  | nil =>
    rw [List.splitOn_nil, List.mem_singleton] at h
    simp [h]
  | cons d cs ih =>
    rw [List.splitOn_cons_eq_if_modifyHead] at h
    split at h
    · rcases List.mem_cons.mp h with rfl | h
      · exact List.not_mem_nil
      · exact ih h
    · next hd =>
      cases hs : cs.splitOn c with
      | nil => exact absurd hs (List.splitOn_ne_nil c cs)
      | cons first more =>
        rw [hs, List.modifyHead_cons] at h
        rcases List.mem_cons.mp h with rfl | h
        · have hfirst : c ∉ first := ih (hs ▸ List.mem_cons_self)
          have hne : c ≠ d := by
            rintro rfl
            simp at hd
          simpa [hne] using hfirst
        · exact ih (hs ▸ List.mem_cons_of_mem first h)

theorem notMem_of_mem_pieces {path piece : String} (h : piece ∈ pieces path) :
    '/' ∉ piece.toList := by
  rw [pieces_eq] at h
  obtain ⟨part, hpart, rfl⟩ := List.mem_map.mp h
  rw [String.toList_ofList]
  exact notMem_of_mem_splitOn hpart

theorem pieces_intercalate (names : List String) (h : ∀ n ∈ names, '/' ∉ n.toList)
    (hn : names ≠ []) : pieces ("/".intercalate names) = names := by
  have hslash : ∀ cs ∈ names.map String.toList, '/' ∉ cs := by
    simpa using h
  have hjoin : ("/".intercalate names).toList = ['/'].intercalate (names.map String.toList) :=
    String.toList_intercalate
  rw [pieces_eq, hjoin, List.splitOn_intercalate '/' hslash (by simpa using hn), List.map_map]
  exact List.map_id'' (fun n => String.ofList_toList) names

theorem pieces_of_notMem {path : String} (h : '/' ∉ path.toList) : pieces path = [path] := by
  have hp := pieces_intercalate [path] (by simpa using h) (by simp)
  rwa [String.intercalate_singleton] at hp

theorem isAbsolute_iff {path piece : String} {rest : List String}
    (h : pieces path = piece :: rest) : isAbsolute path ↔ piece = "" ∧ rest ≠ [] := by
  have hslash : "/".toList = ['/'] := rfl
  rw [pieces_eq] at h
  rw [isAbsolute, String.startsWith_string_iff, hslash]
  cases hp : path.toList with
  | nil =>
    rw [hp, List.splitOn_nil] at h
    cases h
    simp
  | cons c cs =>
    rw [hp, List.splitOn_cons_eq_if_modifyHead] at h
    split at h
    · next hc =>
      cases h
      have hne : cs.splitOn '/' ≠ [] := List.splitOn_ne_nil '/' cs
      simpa [hne] using (beq_iff_eq.mp hc).symm
    · next hc =>
      cases hs : cs.splitOn '/' with
      | nil => exact absurd hs (List.splitOn_ne_nil '/' cs)
      | cons first more =>
        rw [hs] at h
        cases h
        have hne : '/' ≠ c := by
          rintro rfl
          simp at hc
        simp [hne]

theorem isAbsolute_of_pieces_append {path above last : String} {front more : List String}
    (ha : pieces above = front ++ [last]) (hl : ¬ isIdle last)
    (h : pieces path = front ++ [last] ++ more) : isAbsolute above = isAbsolute path := by
  rw [Bool.eq_iff_iff]
  cases front with
  | nil =>
    have hne : last ≠ "" := by
      rintro rfl
      exact hl (by decide)
    rw [isAbsolute_iff ha, isAbsolute_iff (by simpa using h)]
    simp [hne]
  | cons piece front =>
    rw [isAbsolute_iff ha, isAbsolute_iff (by simpa using h)]
    simp

theorem forall_mem_takeWhile (f : String → Bool) (ps : List String) :
    ∀ p ∈ (ps.takeWhile f).reverse, f p := by
  intro p hp
  exact List.all_eq_true.mp List.all_takeWhile p (List.mem_reverse.mp hp)

theorem reverse_eq_dropWhile_append (f : String → Bool) (ps : List String) :
    ps.reverse = (ps.dropWhile f).reverse ++ (ps.takeWhile f).reverse := by
  rw [← List.reverse_append, List.takeWhile_append_dropWhile]

/-- Between a path and the path above it there are idle pieces, then perhaps one that is not, and
idle pieces behind that. Without a path above it these are all there is. -/
theorem parent?_cases (path : String) :
    (parent? path = none ∧ ∃ idles tail, pieces path = idles ++ tail ∧
      (∀ p ∈ idles, isIdle p) ∧ ∀ p ∈ tail.tail, isIdle p) ∨
    ∃ above idles tail, parent? path = some above ∧ isAbsolute above = isAbsolute path ∧
      pieces path = pieces above ++ (idles ++ tail) ∧
      (∀ p ∈ idles, isIdle p) ∧ ∀ p ∈ tail.tail, isIdle p := by
  have hpath := reverse_eq_dropWhile_append isIdle (pieces path).reverse
  rw [List.reverse_reverse] at hpath
  have hidle := forall_mem_takeWhile isIdle (pieces path).reverse
  cases hlast : (pieces path).reverse.dropWhile isIdle with
  | nil =>
    refine .inl ⟨by rw [parent?, hlast], _, [], ?_, hidle, nofun⟩
    simpa [hlast] using hpath
  | cons name above =>
    rw [hlast, List.reverse_cons, reverse_eq_dropWhile_append isIdle above] at hpath
    have habove := forall_mem_takeWhile isIdle above
    cases hname : above.dropWhile isIdle with
    | nil =>
      refine .inl ⟨by simp [parent?, hlast, hname], _, name :: _, ?_, habove, hidle⟩
      simpa [hname] using hpath
    | cons last front =>
      have hl : ¬ isIdle last := by
        simpa [hname] using List.head?_dropWhile_not isIdle above
      have heq : pieces path = front.reverse ++ [last] ++
          ((above.takeWhile isIdle).reverse ++
            name :: ((pieces path).reverse.takeWhile isIdle).reverse) := by
        simpa [hname] using hpath
      have hpieces : pieces ("/".intercalate (front.reverse ++ [last])) =
            front.reverse ++ [last] := by
        refine pieces_intercalate _ (fun n hn => ?_) (by simp)
        exact notMem_of_mem_pieces (heq ▸ List.mem_append_left _ hn)
      refine .inr ⟨_, _, name :: _, ?_, isAbsolute_of_pieces_append hpieces hl heq, ?_,
          habove, hidle⟩
      · simp [parent?, hlast, hname]
      · rw [hpieces]
        exact heq

end Predication.Path
