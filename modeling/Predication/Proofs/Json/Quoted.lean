import Predication.Proofs.Json.Grammar
import Predication.Proofs.Json.Text

namespace Predication.Json

theorem toNat_lt_of_hexValue? {c : Char} {n : Nat} (h : hexValue? c = some n) : c.toNat < 128 := by
  have hle {d : Char} (hd : c ≤ d) : c.toNat ≤ d.toNat := UInt32.le_iff_toNat_le.mp hd
  simp only [hexValue?, Text.isDigit, Bool.and_eq_true, decide_eq_true_eq] at h
  split at h
  · next hc => exact Nat.lt_of_le_of_lt (hle hc.2) (by decide)
  split at h
  · next hc => exact Nat.lt_of_le_of_lt (hle hc.2) (by decide)
  split at h
  · next hc => exact Nat.lt_of_le_of_lt (hle hc.2) (by decide)
  · cases h

theorem hexValue?_eq_some_iff {c : Char} {n : Nat} : hexValue? c = some n ↔ HexDigit c n := by
  constructor
  · intro h
    have hc : c.toNat < 128 := toNat_lt_of_hexValue? h
    have hall : ∀ i < 128, (hexValue? (Char.ofNat i)).all fun n => decide
        (n < 16 ∧ (Char.ofNat i = Nat.digitChar n ∨ Char.ofNat i = (Nat.digitChar n).toUpper)) := by
      decide +kernel
    have hn := hall c.toNat hc
    rw [Char.ofNat_toNat, h] at hn
    rw [Option.all_some, decide_eq_true_eq] at hn
    exact hn
  · have hall : ∀ n < 16, hexValue? (Nat.digitChar n) = some n ∧
        hexValue? (Nat.digitChar n).toUpper = some n := by decide
    rintro ⟨hn, rfl | rfl⟩
    · exact (hall n hn).1
    · exact (hall n hn).2

theorem hex4?_eq_some_iff {a b c d : Char} {n : Nat} :
    hex4? a b c d = some n ↔ ∃ p q r s, HexDigit a p ∧ HexDigit b q ∧ HexDigit c r ∧ HexDigit d s ∧
      n = 0x1000 * p + 0x100 * q + 0x10 * r + s := by
  simp only [← hexValue?_eq_some_iff]
  constructor
  · intro h
    rw [hex4?] at h
    split at h
    · next p q r s hp hq hr hs =>
      refine ⟨p, q, r, s, hp, hq, hr, hs, ?_⟩
      have hn := Option.some.inj h
      omega
    · cases h
  · rintro ⟨p, q, r, s, hp, hq, hr, hs, rfl⟩
    simp only [hex4?, hp, hq, hr, hs, Option.some.injEq]
    omega

theorem simpleEscape?_eq_some_iff {e c : Char} : simpleEscape? e = some c ↔ Escape e c := by
  constructor
  · intro h
    rw [simpleEscape?] at h
    split at h
    · next he => cases h; exact he ▸ .quote
    split at h
    · next he => cases h; exact he ▸ .backslash
    split at h
    · next he => cases h; exact he ▸ .slash
    split at h
    · next he => cases h; exact he ▸ .backspace
    split at h
    · next he => cases h; exact he ▸ .formFeed
    split at h
    · next he => cases h; exact he ▸ .newline
    split at h
    · next he => cases h; exact he ▸ .carriageReturn
    split at h
    · next he => cases h; exact he ▸ .tab
    · cases h
  · intro h
    cases h <;> rfl

theorem body_of_readPieces {cs rest : List Char} {ps : List Piece}
    (h : readPieces cs = some (ps, rest)) : ∃ body, cs = body ++ '"' :: rest ∧ Body body ps := by
  fun_induction readPieces cs generalizing ps with
  | case1 => cases h
  | case2 after =>
    cases h
    exact ⟨[], rfl, .nil⟩
  | case3 a b c d after hx => cases h
  | case4 a b c d after n hx ih =>
    obtain ⟨⟨qs, r⟩, hr, he⟩ := Option.map_eq_some_iff.mp h
    cases he
    obtain ⟨body, rfl, hb⟩ := ih hr
    obtain ⟨p, q, r, s, hp, hq, hr, hs, rfl⟩ := hex4?_eq_some_iff.mp hx
    exact ⟨'\\' :: 'u' :: a :: b :: c :: d :: body, rfl, .unit hp hq hr hs hb⟩
  | case5 c after hx hs => cases h
  | case6 c after hx e hs ih =>
    obtain ⟨⟨qs, r⟩, hr, he⟩ := Option.map_eq_some_iff.mp h
    cases he
    obtain ⟨body, rfl, hb⟩ := ih hr
    exact ⟨'\\' :: c :: body, rfl, .escape (simpleEscape?_eq_some_iff.mp hs) hb⟩
  | case7 c after hq hx hs hc => cases h
  | case8 c after hq hx hs hc ih =>
    obtain ⟨⟨qs, r⟩, hr, he⟩ := Option.map_eq_some_iff.mp h
    cases he
    obtain ⟨body, rfl, hb⟩ := ih hr
    obtain ⟨hs, hc⟩ := not_or.mp hc
    exact ⟨c :: body, rfl, .plain hq hs (by omega) hb⟩

theorem readPieces_of_body {body : List Char} {ps : List Piece} (h : Body body ps)
    (rest : List Char) : readPieces (body ++ '"' :: rest) = some (ps, rest) := by
  induction h with
  | nil => rfl
  | plain hq hb hc h ih =>
    rw [List.cons_append, readPieces_plain hq hb (by omega), ih]
    rfl
  | @escape e c cs ps he h ih =>
    have hu : e ≠ 'u' := by
      rintro rfl
      cases he
    rw [List.cons_append, List.cons_append,
      readPieces_escape (simpleEscape?_eq_some_iff.mpr he) hu, ih]
    rfl
  | unit ha hb hc hd h ih =>
    have hx := hex4?_eq_some_iff.mpr ⟨_, _, _, _, ha, hb, hc, hd, rfl⟩
    simp only [List.cons_append]
    rw [readPieces, hx]
    simp only [ih, Option.map_some]

theorem isHighSurrogate_iff {n : Nat} :
    isHighSurrogate n = true ↔ ∃ m < 0x400, n = 0xd800 + m := by
  simp only [isHighSurrogate, Bool.and_eq_true, decide_eq_true_eq]
  constructor
  · intro h
    exact ⟨n - 0xd800, by omega, by omega⟩
  · rintro ⟨m, hm, rfl⟩
    omega

theorem isLowSurrogate_iff {n : Nat} :
    isLowSurrogate n = true ↔ ∃ m < 0x400, n = 0xdc00 + m := by
  simp only [isLowSurrogate, Bool.and_eq_true, decide_eq_true_eq]
  constructor
  · intro h
    exact ⟨n - 0xdc00, by omega, by omega⟩
  · rintro ⟨m, hm, rfl⟩
    omega

theorem surrogatePair_add (m n : Nat) :
    surrogatePair (0xd800 + m) (0xdc00 + n) = Char.ofNat (0x10000 + 0x400 * m + n) := by
  rw [surrogatePair, Nat.add_sub_cancel_left, Nat.add_sub_cancel_left, Nat.mul_comm]

theorem not_surrogate_iff {n : Nat} :
    isHighSurrogate n = false ∧ isLowSurrogate n = false ↔ n < 0xd800 ∨ 0xe000 ≤ n := by
  simp only [isHighSurrogate, isLowSurrogate, Bool.and_eq_false_iff, decide_eq_false_iff_not]
  omega

theorem characters_of_piecesText? {ps : List Piece} {cs : List Char}
    (h : piecesText? ps = some cs) : Characters ps cs := by
  fun_induction piecesText? ps generalizing cs with
  | case1 =>
    cases h
    exact .nil
  | case2 c ps ih =>
    obtain ⟨ds, hd, rfl⟩ := Option.map_eq_some_iff.mp h
    exact .char c (ih hd)
  | case3 high hh low ps hl ih =>
    obtain ⟨ds, hd, rfl⟩ := Option.map_eq_some_iff.mp h
    obtain ⟨m, hm, rfl⟩ := isHighSurrogate_iff.mp hh
    obtain ⟨n, hn, rfl⟩ := isLowSurrogate_iff.mp hl
    rw [surrogatePair_add]
    exact .pair hm hn (ih hd)
  | case4 => cases h
  | case5 => cases h
  | case6 => cases h
  | case7 n ps hh hl ih =>
    obtain ⟨ds, hd, rfl⟩ := Option.map_eq_some_iff.mp h
    rw [Bool.not_eq_true] at hh hl
    exact .unit (not_surrogate_iff.mp ⟨hh, hl⟩) (ih hd)

theorem piecesText?_of_characters {ps : List Piece} {cs : List Char} (h : Characters ps cs) :
    piecesText? ps = some cs := by
  induction h with
  | nil => rfl
  | char c h ih =>
    rw [piecesText?, ih]
    rfl
  | unit hn h ih =>
    obtain ⟨hh, hl⟩ := not_surrogate_iff.mpr hn
    rw [piecesText?.eq_def]
    simp only [hh, hl, ih, Bool.false_eq_true, if_false, Option.map_some]
  | @pair m n ps cs hm hn h ih =>
    have hh : isHighSurrogate (0xd800 + m) = true := isHighSurrogate_iff.mpr ⟨m, hm, rfl⟩
    have hl : isLowSurrogate (0xdc00 + n) = true := isLowSurrogate_iff.mpr ⟨n, hn, rfl⟩
    rw [piecesText?.eq_def]
    simp only [hh, hl, ih, surrogatePair_add, if_true, Option.map_some]

theorem quoted_of_readText {cs rest : List Char} {t : Option String}
    (h : readText cs = some (t, rest)) :
    ∃ body, cs = body ++ '"' :: rest ∧ Quoted ('"' :: (body ++ ['"'])) t := by
  obtain ⟨⟨ps, r⟩, hr, he⟩ := Option.map_eq_some_iff.mp h
  cases he
  obtain ⟨body, rfl, hb⟩ := body_of_readPieces hr
  refine ⟨body, rfl, ?_⟩
  cases hp : piecesText? ps with
  | none =>
    refine .broken hb ?_
    intro t ht
    rw [piecesText?_of_characters ht] at hp
    cases hp
  | some t => exact .text hb (characters_of_piecesText? hp)

theorem readText_of_body {body : List Char} {ps : List Piece} (h : Body body ps)
    (rest : List Char) :
    readText (body ++ '"' :: rest) = some ((piecesText? ps).map String.ofList, rest) := by
  rw [readText, readPieces_of_body h, Option.map_some]

theorem readText_of_quoted {cs : List Char} {t : Option String} (h : Quoted cs t) :
    ∃ body, cs = '"' :: body ∧ ∀ rest, readText (body ++ rest) = some (t, rest) := by
  cases h with
  | @text body ps t hb ht =>
    refine ⟨body ++ ['"'], rfl, ?_⟩
    intro rest
    rw [List.append_assoc, List.singleton_append, readText_of_body hb,
      piecesText?_of_characters ht, Option.map_some]
  | @broken body ps hb ht =>
    have hp : piecesText? ps = none := by
      cases hp : piecesText? ps with
      | none => rfl
      | some t => exact absurd (characters_of_piecesText? hp) (ht t)
    refine ⟨body ++ ['"'], rfl, ?_⟩
    intro rest
    rw [List.append_assoc, List.singleton_append, readText_of_body hb, hp, Option.map_none]

theorem quoted_quoted (s : String) : Quoted (quoted s) (some s) := by
  obtain ⟨body, he, hq⟩ := quoted_of_readText (readText_quoted s [])
  rw [← (List.append_left_inj _).mp he] at hq
  exact hq

end Predication.Json
