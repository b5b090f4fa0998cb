import Predication.Text.Quoted
import Mathlib.Data.List.Basic

namespace Predication.Text

section Hexadecimal

variable {m n : Nat}

theorem exists_digitChar_of_mem_toDigits {c : Char} (h : c ∈ Nat.toDigits 16 n) :
    ∃ d < 16, c = Nat.digitChar d := by
  induction n using Nat.strongRecOn with
  | ind n ih =>
    by_cases hn : n < 16
    · rw [Nat.toDigits_of_lt_base hn, List.mem_singleton] at h
      exact ⟨n, hn, h⟩
    · rw [Nat.toDigits_of_base_le (by decide) (Nat.not_lt.mp hn), List.mem_append,
        List.mem_singleton] at h
      rcases h with h | h
      · exact ih (n / 16) (by omega) h
      · exact ⟨n % 16, Nat.mod_lt n (by decide), h⟩

theorem brace_notMem_toDigits (n : Nat) : '\x7d' ∉ Nat.toDigits 16 n := by
  intro h
  obtain ⟨d, hd, hc⟩ := exists_digitChar_of_mem_toDigits h
  have hall : ∀ d < 16, '\x7d' ≠ Nat.digitChar d := by decide
  exact hall d hd hc

theorem digitChar_inj (hm : m < 16) (hn : n < 16) (h : Nat.digitChar m = Nat.digitChar n) :
    m = n := by
  have hall : ∀ m < 16, ∀ n < 16, Nat.digitChar m = Nat.digitChar n → m = n := by decide
  exact hall m hm n hn h

theorem toDigits_ne_of_lt (hm : m < 16) (hn : 16 ≤ n) : Nat.toDigits 16 m ≠ Nat.toDigits 16 n := by
  intro h
  have hlen := congrArg List.length h
  rw [Nat.toDigits_of_lt_base hm, Nat.toDigits_of_base_le (by decide) hn, List.length_append,
    List.length_singleton, List.length_singleton] at hlen
  have hpos : 0 < (Nat.toDigits 16 (n / 16)).length := List.length_pos_iff.mpr Nat.toDigits_ne_nil
  omega

theorem toDigits_sixteen_inj (h : Nat.toDigits 16 m = Nat.toDigits 16 n) : m = n := by
  induction m using Nat.strongRecOn generalizing n with
  | ind m ih =>
    by_cases hm : m < 16 <;> by_cases hn : n < 16
    · rw [Nat.toDigits_of_lt_base hm, Nat.toDigits_of_lt_base hn, List.cons.injEq] at h
      exact digitChar_inj hm hn h.1
    · exact absurd h (toDigits_ne_of_lt hm (Nat.not_lt.mp hn))
    · exact absurd h.symm (toDigits_ne_of_lt hn (Nat.not_lt.mp hm))
    · rw [Nat.toDigits_of_base_le (by decide) (Nat.not_lt.mp hm),
        Nat.toDigits_of_base_le (by decide) (Nat.not_lt.mp hn)] at h
      obtain ⟨hfront, hlast⟩ := List.append_inj' h rfl
      have hdiv : m / 16 = n / 16 := ih (m / 16) (by omega) hfront
      have hmod : m % 16 = n % 16 :=
        digitChar_inj (Nat.mod_lt m (by decide)) (Nat.mod_lt n (by decide)) (List.cons.inj hlast).1
      omega

end Hexadecimal

inductive ShortEscape : Char → Char → Prop
  | zero : ShortEscape '0' '\x00'
  | tab : ShortEscape 't' '\t'
  | carriageReturn : ShortEscape 'r' '\r'
  | newline : ShortEscape 'n' '\n'
  | backslash : ShortEscape '\\' '\\'
  | quote : ShortEscape '"' '"'

inductive Piece : List Char → Char → Prop
  | short {e c} (h : ShortEscape e c) : Piece ['\\', e] c
  | code (c : Char) : Piece ('\\' :: 'u' :: '\x7b' :: (Nat.toDigits 16 c.toNat ++ ['\x7d'])) c
  | plain {c} (hb : c ≠ '\\') (hq : c ≠ '"') : Piece [c] c

theorem ShortEscape.inj {e c d : Char} (hc : ShortEscape e c) (hd : ShortEscape e d) : c = d := by
  cases hc <;> cases hd <;> rfl

theorem piece_quoteCharWith (coded : Char → Bool) (c : Char) : Piece (quoteCharWith coded c) c := by
  rw [quoteCharWith]
  split
  · next h => subst h; exact .short .zero
  split
  · next h => subst h; exact .short .tab
  split
  · next h => subst h; exact .short .carriageReturn
  split
  · next h => subst h; exact .short .newline
  split
  · next h => subst h; exact .short .backslash
  split
  · next h => subst h; exact .short .quote
  split
  · exact .code c
  · next hb hq _ => exact .plain hb hq

section

variable {p q x y : List Char} {c d : Char}

theorem Piece.append_ne (h : Piece p c) : p ++ x ≠ '"' :: y := by
  cases h with
  | short h =>
    intro he
    exact absurd (List.cons.inj he).1 (by decide)
  | code c =>
    intro he
    exact absurd (List.cons.inj he).1 (by decide)
  | plain hb hq =>
    intro he
    exact hq (List.cons.inj he).1

theorem code_append_inj {m n : Nat}
    (h : Nat.toDigits 16 m ++ '\x7d' :: x = Nat.toDigits 16 n ++ '\x7d' :: y) : m = n ∧ x = y := by
  have hdigits (n : Nat) (x : List Char) :
      (Nat.toDigits 16 n ++ '\x7d' :: x).takeWhile (· != '\x7d') = Nat.toDigits 16 n := by
    rw [List.takeWhile_append_of_pos, List.takeWhile_cons_of_neg (by decide), List.append_nil]
    intro c hc
    rw [bne_iff_ne]
    rintro rfl
    exact brace_notMem_toDigits n hc
  have hn := congrArg (List.takeWhile (· != '\x7d')) h
  rw [hdigits, hdigits] at hn
  obtain rfl := toDigits_sixteen_inj hn
  exact ⟨rfl, (List.cons.inj (List.append_cancel_left h)).2⟩

/-- Short escapes, code points and plain characters begin differently, and pieces of one kind are
told apart by what follows the beginning. -/
theorem Piece.append_inj (hc : Piece p c) (hd : Piece q d) (h : p ++ x = q ++ y) :
    c = d ∧ x = y := by
  cases hc with
  | @short e c hc =>
    cases hd with
    | short hd =>
      simp only [List.cons_append, List.nil_append, List.cons.injEq, true_and] at h
      obtain ⟨rfl, rfl⟩ := h
      exact ⟨hc.inj hd, rfl⟩
    | code d =>
      simp only [List.cons_append, List.nil_append, List.cons.injEq, true_and] at h
      obtain ⟨rfl, -⟩ := h
      cases hc
    | plain hb hq => exact absurd (List.cons.inj h).1.symm hb
  | code c =>
    cases hd with
    | short hd =>
      simp only [List.cons_append, List.nil_append, List.cons.injEq, true_and] at h
      obtain ⟨rfl, -⟩ := h
      cases hd
    | code d =>
      simp only [List.cons_append, List.append_assoc, List.nil_append, List.cons.injEq,
        true_and] at h
      obtain ⟨hn, rfl⟩ := code_append_inj h
      exact ⟨Char.toNat_inj.mp hn, rfl⟩
    | plain hb hq => exact absurd (List.cons.inj h).1.symm hb
  | plain hb hq =>
    cases hd with
    | short hd => exact absurd (List.cons.inj h).1 hb
    | code d => exact absurd (List.cons.inj h).1 hb
    | plain hb' hq' => exact List.cons.inj h

end

/-- Of the characters up to the closing quote; what is written by its code point may differ. -/
theorem flatMap_quote_inj {coded coded' : Char → Bool} {cs ds x y : List Char}
    (h : cs.flatMap (quoteCharWith coded) ++ '"' :: x =
      ds.flatMap (quoteCharWith coded') ++ '"' :: y) : cs = ds ∧ x = y := by
  induction cs generalizing ds with
  | nil =>
    cases ds with
    | nil => exact ⟨rfl, (List.cons.inj h).2⟩
    | cons d ds =>
      rw [List.flatMap_cons, List.append_assoc] at h
      exact absurd h.symm (piece_quoteCharWith coded' d).append_ne
  | cons c cs ih =>
    rw [List.flatMap_cons, List.append_assoc] at h
    cases ds with
    | nil => exact absurd h (piece_quoteCharWith coded c).append_ne
    | cons d ds =>
      rw [List.flatMap_cons, List.append_assoc] at h
      obtain ⟨rfl, hrest⟩ :=
        (piece_quoteCharWith coded c).append_inj (piece_quoteCharWith coded' d) h
      obtain ⟨rfl, rfl⟩ := ih hrest
      exact ⟨rfl, rfl⟩

theorem quoteWith_append_inj {coded coded' : Char → Bool} {cs ds x y : List Char}
    (h : quoteWith coded cs ++ x = quoteWith coded' ds ++ y) : cs = ds ∧ x = y := by
  simp only [quoteWith, List.cons_append, List.append_assoc, List.nil_append, List.cons.injEq,
    true_and] at h
  exact flatMap_quote_inj h

theorem quote_append_inj {s t x y : String} (h : quote s ++ x = quote t ++ y) : s = t ∧ x = y := by
  have hl := congrArg String.toList h
  simp only [quote, String.toList_append, String.toList_ofList] at hl
  obtain ⟨hs, hx⟩ := quoteWith_append_inj hl
  exact ⟨String.toList_inj.mp hs, String.toList_inj.mp hx⟩

end Predication.Text
