import Predication.Json.Printer
import Predication.Json.Reader

namespace Predication.Json

theorem hexValue?_digitChar : ∀ n < 16, hexValue? (Nat.digitChar n) = some n := by
  decide

theorem hex4?_control {n : Nat} (h : n < 0x20) :
    hex4? '0' '0' (Nat.digitChar (n / 16)) (Nat.digitChar (n % 16)) = some n := by
  have hz : hexValue? '0' = some 0 := hexValue?_digitChar 0 (by decide)
  have hq := hexValue?_digitChar (n / 16) (by omega)
  have hm := hexValue?_digitChar (n % 16) (by omega)
  simp only [hex4?, hz, hq, hm, Option.some.injEq]
  omega

def Piece.Means (p : Piece) (c : Char) : Prop :=
  ∀ ps, piecesText? (p :: ps) = (piecesText? ps).map (c :: ·)

theorem means_char (c : Char) : (Piece.char c).Means c :=
  fun _ => rfl

theorem means_unit {c : Char} (h : c.toNat < 0x20) : (Piece.unit c.toNat).Means c := by
  intro ps
  have hh : isHighSurrogate c.toNat = false := by
    rw [isHighSurrogate, decide_eq_false (by omega), Bool.false_and]
  have hl : isLowSurrogate c.toNat = false := by
    rw [isLowSurrogate, decide_eq_false (by omega), Bool.false_and]
  rw [piecesText?.eq_def]
  simp only [hh, hl, Bool.false_eq_true, if_false, Char.ofNat_toNat]

theorem readPieces_escape {c e : Char} (h : simpleEscape? e = some c) (hu : e ≠ 'u')
    (rest : List Char) :
    readPieces ('\\' :: e :: rest) =
      (readPieces rest).map fun (ps, after) => (.char c :: ps, after) := by
  rw [readPieces, h]
  intro a b c' d rest' he
  exact absurd he hu

theorem readPieces_control {c : Char} (h : c.toNat < 0x20) (rest : List Char) :
    readPieces (controlEscape c ++ rest) =
      (readPieces rest).map fun (ps, after) => (.unit c.toNat :: ps, after) := by
  rw [controlEscape, List.cons_append, List.cons_append, List.cons_append, List.cons_append,
    List.cons_append, List.cons_append, List.nil_append, readPieces, hex4?_control h]

theorem readPieces_plain {c : Char} (hq : c ≠ '"') (hb : c ≠ '\\') (h : ¬ c.toNat < 0x20)
    (rest : List Char) :
    readPieces (c :: rest) =
      (readPieces rest).map fun (ps, after) => (.char c :: ps, after) := by
  rw [readPieces, if_neg (not_or.mpr ⟨hb, h⟩)]
  · exact hq
  · intro a b c' d rest' hc
    exact absurd hc hb
  · intro c' rest' hc
    exact absurd hc hb

theorem readPieces_escapeChar (c : Char) :
    ∃ p : Piece, p.Means c ∧ ∀ rest, readPieces (escapeChar c ++ rest) =
      (readPieces rest).map fun (ps, after) => (p :: ps, after) := by
  have escaped (c e : Char) (h : simpleEscape? e = some c) (hu : e ≠ 'u') :
      ∃ p : Piece, p.Means c ∧ ∀ rest, readPieces (['\\', e] ++ rest) =
        (readPieces rest).map fun (ps, after) => (p :: ps, after) :=
    ⟨.char c, means_char c, readPieces_escape h hu⟩
  unfold escapeChar
  by_cases hq : c = '"'
  · rw [if_pos hq]
    exact hq ▸ escaped '"' '"' (by decide) (by decide)
  by_cases hb : c = '\\'
  · rw [if_neg hq, if_pos hb]
    exact hb ▸ escaped '\\' '\\' (by decide) (by decide)
  rw [if_neg hq, if_neg hb]
  split
  · next h => exact h ▸ escaped '\x08' 'b' (by decide) (by decide)
  split
  · next h => exact h ▸ escaped '\t' 't' (by decide) (by decide)
  split
  · next h => exact h ▸ escaped '\n' 'n' (by decide) (by decide)
  split
  · next h => exact h ▸ escaped '\x0c' 'f' (by decide) (by decide)
  split
  · next h => exact h ▸ escaped '\r' 'r' (by decide) (by decide)
  split
  · next h => exact ⟨.unit c.toNat, means_unit h, readPieces_control h⟩
  · next h => exact ⟨.char c, means_char c, readPieces_plain hq hb h⟩

theorem readPieces_escaped (cs rest : List Char) :
    ∃ ps, readPieces (cs.flatMap escapeChar ++ '"' :: rest) = some (ps, rest) ∧
      piecesText? ps = some cs := by
  induction cs with
  | nil => exact ⟨[], rfl, rfl⟩
  | cons c cs ih =>
    obtain ⟨ps, hr, ht⟩ := ih
    obtain ⟨p, hp, hc⟩ := readPieces_escapeChar c
    refine ⟨p :: ps, ?_, ?_⟩
    · rw [List.flatMap_cons, List.append_assoc, hc, hr]
      rfl
    · rw [hp, ht]
      rfl

theorem readText_quoted (s : String) (rest : List Char) :
    readText (s.toList.flatMap escapeChar ++ '"' :: rest) = some (some s, rest) := by
  obtain ⟨ps, hr, ht⟩ := readPieces_escaped s.toList rest
  simp only [readText, hr, Option.map_some, ht, String.ofList_toList]

end Predication.Json
