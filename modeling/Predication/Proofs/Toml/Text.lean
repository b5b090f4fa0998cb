import Predication.Proofs.Json.Quoted
import Predication.Proofs.Toml.Grammar
import Predication.Toml.Text

namespace Predication.Toml

section Character

variable {c e x : Char} {p rest : List Char}

theorem isPlain_iff : isPlain c = true ↔ Visible c := by
  simp only [isPlain, Visible, Bool.or_eq_true, Bool.and_eq_true, beq_iff_eq, bne_iff_ne,
    decide_eq_true_eq]

theorem isSpace_iff : isSpace c = true ↔ c = ' ' ∨ c = '\t' := by
  simp only [isSpace, Bool.or_eq_true, beq_iff_eq]

theorem shortEscape?_eq (h : Escape e x) : shortEscape? e = some x := by
  cases h <;> rfl

theorem Escape.ne (h : Escape e x) : e ≠ 'u' ∧ e ≠ 'U' := by
  cases h <;> decide

theorem scalarValue?_toNat (c : Char) : scalarValue? c.toNat = some c := by
  have hc : c.toNat < 0xd800 ∨ 0xdfff < c.toNat ∧ c.toNat < 0x110000 := c.valid
  rw [scalarValue?, if_pos (by omega), Char.ofNat_toNat]

theorem code4?_eq {a b c d : Char} {p q r s : Nat} (ha : Json.HexDigit a p) (hb : Json.HexDigit b q)
    (hc : Json.HexDigit c r) (hd : Json.HexDigit d s)
    (hx : x.toNat = 0x1000 * p + 0x100 * q + 0x10 * r + s) : code4? a b c d = some x := by
  rw [code4?, Json.hex4?_eq_some_iff.mpr ⟨p, q, r, s, ha, hb, hc, hd, rfl⟩, Option.bind_some, ← hx,
    scalarValue?_toNat]

theorem code8?_eq {a b c d e f g h : Char} {i j k l m n o p : Nat} (ha : Json.HexDigit a i)
    (hb : Json.HexDigit b j) (hc : Json.HexDigit c k) (hd : Json.HexDigit d l)
    (he : Json.HexDigit e m) (hf : Json.HexDigit f n) (hg : Json.HexDigit g o)
    (hh : Json.HexDigit h p)
    (hx : x.toNat = (0x1000 * i + 0x100 * j + 0x10 * k + l) * 0x10000 +
      (0x1000 * m + 0x100 * n + 0x10 * o + p)) : code8? a b c d e f g h = some x := by
  have high := Json.hex4?_eq_some_iff.mpr ⟨i, j, k, l, ha, hb, hc, hd, rfl⟩
  have low := Json.hex4?_eq_some_iff.mpr ⟨m, n, o, p, he, hf, hg, hh, rfl⟩
  rw [code8?, high, low]
  simp only
  rw [← hx, scalarValue?_toNat]

end Character

section Basic

theorem readBasic_append {p rest : List Char} {x : Char} (h : BasicChar p x) :
    readBasic (p ++ rest) = (readBasic rest).cons x := by
  cases h with
  | plain hq hb h =>
    have hp : (x != '\\' && isPlain x) = true := by
      rw [Bool.and_eq_true, bne_iff_ne, isPlain_iff]
      exact ⟨hb, h⟩
    rw [List.singleton_append, readBasic, if_pos hp]
    · exact hq
    · intro a b c d rest' hc
      exact absurd hc hb
    · intro a b c d e f g h rest' hc
      exact absurd hc hb
    · intro c rest' hc
      exact absurd hc hb
  | @escape e x h =>
    rw [List.cons_append, List.singleton_append, readBasic, shortEscape?_eq h]
    · intro a b c d rest' he
      exact absurd he h.ne.1
    · intro a b c d e' f g i rest' he
      exact absurd he h.ne.2
  | code ha hb hc hd hx =>
    simp only [List.cons_append, List.nil_append]
    rw [readBasic, code4?_eq ha hb hc hd hx]
  | longCode ha hb hc hd he hf hg hh hx =>
    simp only [List.cons_append, List.nil_append]
    rw [readBasic, code8?_eq ha hb hc hd he hf hg hh hx]

theorem readBasic_of_basic {cs t : List Char} (h : Basic cs t) (rest : List Char) :
    readBasic (cs ++ '"' :: rest) = some (t, rest) := by
  induction h with
  | nil => rfl
  | cons hp h ih =>
    rw [List.append_assoc, readBasic_append hp, ih]
    rfl

theorem readLiteral_of_literal {t : List Char} (h : Literal t) (rest : List Char) :
    readLiteral (t ++ '\x27' :: rest) = some (t, rest) := by
  induction t with
  | nil => rfl
  | cons c t ih =>
    obtain ⟨hq, hc⟩ := h c List.mem_cons_self
    rw [List.cons_append, readLiteral, if_pos (isPlain_iff.mpr hc),
      ih fun d hd => h d (List.mem_cons_of_mem c hd)]
    · rfl
    · exact hq

end Basic

section Lines

variable {cs t rest : List Char}

theorem avoids_nil (heads : List Char) : Avoids heads [] := by
  simp [Avoids]

theorem avoids_cons {heads : List Char} {c : Char} (h : c ∉ heads) (cs : List Char) :
    Avoids heads (c :: cs) := by
  intro d hd heq
  obtain rfl := Option.some.inj heq
  exact h hd

theorem avoids_append {heads ds : List Char} (hc : Avoids heads cs) (hd : Avoids heads ds) :
    Avoids heads (cs ++ ds) := by
  cases cs with
  | nil => exact hd
  | cons c cs => exact hc

theorem Avoids.append {heads : List Char} (h : Avoids heads cs) (hne : cs ≠ [])
    (rest : List Char) : Avoids heads (cs ++ rest) := by
  obtain ⟨d, ds, rfl⟩ := List.exists_cons_of_ne_nil hne
  exact h

theorem skipFirstNewline_append {n : List Char} (hn : Newline n) (cs : List Char) :
    skipFirstNewline (n ++ cs) = cs := by
  cases hn <;> rfl

theorem skipFirstNewline_of_avoids (h : Avoids ['\n', '\r'] cs) : skipFirstNewline cs = cs := by
  rw [skipFirstNewline.eq_def]
  split
  · exact absurd rfl (h '\n' (by simp))
  · exact absurd rfl (h '\r' (by simp))
  · rfl

theorem closeQuotes_replicate {q : Char} {n : Nat} (hn : n ≤ 2) (hr : rest.head? ≠ some q) :
    closeQuotes q (List.replicate n q ++ rest) = (List.replicate n q, rest) := by
  have hne (d : Char) (r : List Char) (h : rest = d :: r) : d ≠ q := by
    rintro rfl
    rw [h] at hr
    exact hr rfl
  match n, hn with
  | 0, _ =>
    rcases rest with _ | ⟨d, _ | ⟨e, r⟩⟩
    · rfl
    · simp [closeQuotes, hne d [] rfl]
    · simp [closeQuotes, hne d (e :: r) rfl]
  | 1, _ =>
    rcases rest with _ | ⟨d, r⟩
    · simp [closeQuotes]
    · simp [closeQuotes, hne d r rfl]
  | 2, _ => simp [closeQuotes, List.replicate]

theorem Visible.ne {c : Char} (h : Visible c) : c ≠ '\n' ∧ c ≠ '\r' := by
  constructor
  · rintro rfl
    revert h
    decide
  · rintro rfl
    revert h
    decide

theorem readLiteralLines_plain {c : Char} (hc : Visible c)
    (h : ∀ r, c :: cs ≠ '\x27' :: '\x27' :: '\x27' :: r) :
    readLiteralLines (c :: cs) = (readLiteralLines cs).cons c := by
  have hp : (c == '\n' || isPlain c) = true := by
    rw [isPlain_iff.mpr hc, Bool.or_true]
  rw [readLiteralLines, if_pos hp]
  · intro r hq hcs
    exact h r (by rw [hq, hcs])
  · intro r hr
    exact absurd hr hc.ne.2

theorem readLiteralLines_quotes {n : Nat} {c : Char} (hn : n ≤ 2) (hc : c ≠ '\x27') :
    readLiteralLines (List.replicate n '\x27' ++ c :: cs) =
      (readLiteralLines (c :: cs)).map fun r => (List.replicate n '\x27' ++ r.1, r.2) := by
  have hv : Visible '\x27' := by decide
  match n, hn with
  | 0, _ => simp
  | 1, _ =>
    rw [List.replicate_one, List.singleton_append, readLiteralLines_plain hv (by simp [hc])]
    rfl
  | 2, _ =>
    rw [List.replicate_succ, List.replicate_one, List.cons_append, List.singleton_append,
      readLiteralLines_plain hv (by simp [hc]), readLiteralLines_plain hv (by simp [hc])]
    cases readLiteralLines (c :: cs) <;> rfl

theorem readLiteralLines_of_lines (h : LiteralLines cs t) (hr : rest.head? ≠ some '\x27') :
    readLiteralLines (cs ++ rest) = some (t, rest) := by
  induction h with
  | @close n hn =>
    rw [List.replicate_succ, List.replicate_succ, List.replicate_succ, List.cons_append,
      List.cons_append, List.cons_append, readLiteralLines, closeQuotes_replicate hn hr]
  | char hq hc h ih =>
    rw [List.cons_append, readLiteralLines_plain hc, ih]
    · rfl
    · intro r he
      exact hq (List.cons.inj he).1
  | quotes hn hc h ih =>
    rw [List.append_assoc, List.cons_append, readLiteralLines_quotes hn hc, ← List.cons_append, ih]
    rfl
  | newline hn h ih =>
    cases hn with
    | lineFeed =>
      rw [List.append_assoc, List.singleton_append, readLiteralLines, ih]
      · rfl
      · simp
      · simp
    | carriageReturn =>
      rw [List.append_assoc, List.cons_append, List.singleton_append, readLiteralLines, ih]
      rfl

theorem readBasicLines_plain {c : Char} (hb : c ≠ '\\') (hc : Visible c)
    (h : ∀ r, c :: cs ≠ '"' :: '"' :: '"' :: r) :
    readBasicLines false (c :: cs) = (readBasicLines false cs).cons c := by
  have hp : (c == '\n' || (c != '\\' && isPlain c)) = true := by
    rw [isPlain_iff.mpr hc, bne_iff_ne.mpr hb, Bool.true_and, Bool.or_true]
  rw [readBasicLines, Bool.false_and, if_neg Bool.false_ne_true, if_pos hp]
  · intro r hq hcs
    exact h r (by rw [hq, hcs])
  · intro r hr
    exact absurd hr hc.ne.2
  · intro a b c d rest' hc
    exact absurd hc hb
  · intro a b c d e f g h rest' hc
    exact absurd hc hb
  · intro c rest' hc
    exact absurd hc hb

theorem readBasicLines_quotes {n : Nat} {c : Char} (hn : n ≤ 2) (hc : c ≠ '"') :
    readBasicLines false (List.replicate n '"' ++ c :: cs) =
      (readBasicLines false (c :: cs)).map fun r => (List.replicate n '"' ++ r.1, r.2) := by
  have hv : Visible '"' := by decide
  have hb : '"' ≠ '\\' := by decide
  match n, hn with
  | 0, _ => simp
  | 1, _ =>
    rw [List.replicate_one, List.singleton_append, readBasicLines_plain hb hv (by simp [hc])]
    rfl
  | 2, _ =>
    rw [List.replicate_succ, List.replicate_one, List.cons_append, List.singleton_append,
      readBasicLines_plain hb hv (by simp [hc]), readBasicLines_plain hb hv (by simp [hc])]
    cases readBasicLines false (c :: cs) <;> rfl

theorem readBasicLines_char {p : List Char} {x : Char} (h : BasicChar p x) :
    readBasicLines false (p ++ cs) = (readBasicLines false cs).cons x := by
  cases h with
  | plain hq hb h =>
    refine readBasicLines_plain hb h fun r he => ?_
    exact hq (List.cons.inj he).1
  | @escape e x h =>
    rw [List.cons_append, List.singleton_append, readBasicLines, shortEscape?_eq h]
    · intro a b c d rest' he
      exact absurd he h.ne.1
    · intro a b c d e' f g i rest' he
      exact absurd he h.ne.2
  | code ha hb hc hd hx =>
    simp only [List.cons_append, List.nil_append]
    rw [readBasicLines, code4?_eq ha hb hc hd hx]
  | longCode ha hb hc hd he hf hg hh hx =>
    simp only [List.cons_append, List.nil_append]
    rw [readBasicLines, code8?_eq ha hb hc hd he hf hg hh hx]

theorem Gap.append {a b : List Char} (ha : Gap a) (hb : Gap b) : Gap (a ++ b) := by
  induction ha with
  | nil => exact hb
  | space hc h ih => exact .space hc ih
  | newline hn h ih =>
    rw [List.append_assoc]
    exact .newline hn ih

theorem Space.gap (h : Space cs) : Gap cs := by
  induction cs with
  | nil => exact .nil
  | cons c cs ih =>
    exact .space (h c List.mem_cons_self) (ih fun d hd => h d (List.mem_cons_of_mem c hd))

theorem readBasicLines_gap {g : List Char} (h : Gap g) :
    readBasicLines true (g ++ cs) = readBasicLines true cs := by
  induction h with
  | nil => rfl
  | @space c g hc h ih =>
    rw [List.cons_append]
    rcases hc with rfl | rfl
    · rw [readBasicLines, if_pos (by decide), ih] <;> simp
    · rw [readBasicLines, if_pos (by decide), ih] <;> simp
  | @newline n g hn h ih =>
    rw [List.append_assoc]
    cases hn with
    | lineFeed => rw [List.singleton_append, readBasicLines, if_pos (by decide), ih] <;> simp
    | carriageReturn =>
      rw [List.cons_append, List.singleton_append, readBasicLines, if_pos rfl, ih]

theorem readBasicLines_settled (h : Avoids [' ', '\t', '\n', '\r'] cs) :
    readBasicLines true cs = readBasicLines false cs := by
  rw [readBasicLines.eq_def true, readBasicLines.eq_def false]
  split
  · rfl
  · rfl
  · exact absurd rfl (h '\r' (by simp))
  · rfl
  · rfl
  · rfl
  · next c r _ _ _ _ _ =>
    have hne : ∀ d ∈ [' ', '\t', '\n', '\r'], c ≠ d := fun d hd hc => h d hd (congrArg some hc)
    have hc : (isSpace c || c == '\n') = false := by
      simp [isSpace, hne ' ', hne '\t', hne '\n']
    simp only [hc, Bool.and_false]

theorem readBasicLines_join {a n b : List Char} (ha : Space a) (hn : Newline n) (hb : Gap b)
    (hs : Avoids [' ', '\t', '\n', '\r'] cs) :
    readBasicLines false ('\\' :: (a ++ (n ++ (b ++ cs)))) = readBasicLines false cs := by
  have hgap : Gap (a ++ (n ++ b)) := ha.gap.append (.newline hn hb)
  have hnewline : startsNewline ((a ++ (n ++ (b ++ cs))).dropWhile isSpace) = true := by
    rw [List.dropWhile_append_of_pos fun c hc => isSpace_iff.mpr (ha c hc)]
    cases hn <;> rfl
  have hhead : ∃ c r, a ++ (n ++ (b ++ cs)) = c :: r ∧ shortEscape? c = none ∧ c ≠ 'u' ∧
      c ≠ 'U' := by
    cases a with
    | nil =>
      cases hn with
      | lineFeed => exact ⟨'\n', b ++ cs, rfl, by decide, by decide, by decide⟩
      | carriageReturn => exact ⟨'\r', '\n' :: (b ++ cs), rfl, by decide, by decide, by decide⟩
    | cons c a =>
      refine ⟨c, a ++ (n ++ (b ++ cs)), rfl, ?_⟩
      rcases ha c List.mem_cons_self with rfl | rfl <;> decide
  obtain ⟨c, r, he, hc, hu, hU⟩ := hhead
  have htrue : readBasicLines true (c :: r) = readBasicLines false cs := by
    have hg : readBasicLines true (a ++ (n ++ b) ++ cs) = readBasicLines true cs :=
      readBasicLines_gap hgap
    rw [List.append_assoc, List.append_assoc, he] at hg
    rw [hg, readBasicLines_settled hs]
  rw [he] at hnewline ⊢
  rw [readBasicLines, hc]
  · simp only [hnewline, if_true, htrue]
  · intro a' b' c' d' r' hc'
    exact absurd hc' hu
  · intro a' b' c' d' e' f' g' h' r' hc'
    exact absurd hc' hU

theorem BasicLines.ne_nil (h : BasicLines cs t) : cs ≠ [] := by
  cases h with
  | close hn => simp
  | char hp h => cases hp <;> simp
  | quotes hn hc h => simp
  | newline hn h => cases hn <;> simp
  | join ha hn hb hs h => simp

theorem readBasicLines_of_lines (h : BasicLines cs t) (hr : rest.head? ≠ some '"') :
    readBasicLines false (cs ++ rest) = some (t, rest) := by
  induction h with
  | @close n hn =>
    rw [List.replicate_succ, List.replicate_succ, List.replicate_succ, List.cons_append,
      List.cons_append, List.cons_append, readBasicLines, closeQuotes_replicate hn hr]
  | char hp h ih =>
    rw [List.append_assoc, readBasicLines_char hp, ih]
    rfl
  | quotes hn hc h ih =>
    rw [List.append_assoc, List.cons_append, readBasicLines_quotes hn hc, ← List.cons_append, ih]
    rfl
  | newline hn h ih =>
    cases hn with
    | lineFeed =>
      rw [List.append_assoc, List.singleton_append, readBasicLines, Bool.false_and,
        if_neg Bool.false_ne_true, if_pos (by decide), ih]
      · rfl
      all_goals simp
    | carriageReturn =>
      rw [List.append_assoc, List.cons_append, List.singleton_append, readBasicLines,
        if_neg Bool.false_ne_true, ih]
      rfl
  | join ha hn hb hs h ih =>
    rw [List.cons_append, List.append_assoc, List.append_assoc, List.append_assoc,
      readBasicLines_join ha hn hb (hs.append h.ne_nil rest), ih]

end Lines

section Quoted

variable {cs t rest : List Char}

theorem LiteralLines.ne_nil (h : LiteralLines cs t) : cs ≠ [] := by
  cases h with
  | close hn => simp
  | char hq hc h => simp
  | quotes hn hc h => simp
  | newline hn h => cases hn <;> simp

theorem BasicChar.head {p : List Char} {x : Char} (h : BasicChar p x) :
    ∃ c r, p = c :: r ∧ c ≠ '"' := by
  cases h with
  | plain hq hb h => exact ⟨_, [], rfl, hq⟩
  | escape h => exact ⟨'\\', _, rfl, by decide⟩
  | code ha hb hc hd hx => exact ⟨'\\', _, rfl, by decide⟩
  | longCode ha hb hc hd he hf hg hh hx => exact ⟨'\\', _, rfl, by decide⟩

theorem readText?_basic (h : Basic cs t) (hr : rest.head? ≠ some '"') :
    readText? ('"' :: (cs ++ '"' :: rest)) = some (t, rest) := by
  have hread := readBasic_of_basic h rest
  have hthree : ∀ r, cs ++ '"' :: rest ≠ '"' :: '"' :: r := by
    intro r he
    cases h with
    | nil =>
      obtain rfl := (List.cons.inj he).2
      exact hr rfl
    | cons hp h =>
      obtain ⟨c, q, rfl, hc⟩ := hp.head
      exact hc (List.cons.inj he).1
  rw [readText?, hread]
  exact hthree

theorem readText?_literal (h : Literal t) (hr : rest.head? ≠ some '\x27') :
    readText? ('\x27' :: (t ++ '\x27' :: rest)) = some (t, rest) := by
  have hread := readLiteral_of_literal h rest
  have hthree : ∀ r, t ++ '\x27' :: rest ≠ '\x27' :: '\x27' :: r := by
    intro r he
    cases t with
    | nil =>
      obtain rfl := (List.cons.inj he).2
      exact hr rfl
    | cons c t => exact (h c List.mem_cons_self).1 (List.cons.inj he).1
  rw [readText?, hread]
  exact hthree

theorem readText?_of_quoted (h : Quoted cs t) (hr : Avoids ['"', '\x27'] rest) :
    readText? (cs ++ rest) = some (t, rest) := by
  have hbasic : rest.head? ≠ some '"' := hr '"' (by simp)
  have hliteral : rest.head? ≠ some '\x27' := hr '\x27' (by simp)
  cases h with
  | basic h =>
    rw [List.cons_append, List.append_assoc, List.singleton_append, readText?_basic h hbasic]
  | literal h =>
    rw [List.cons_append, List.append_assoc, List.singleton_append, readText?_literal h hliteral]
  | basicLines hs h =>
    rw [List.cons_append, List.cons_append, List.cons_append, readText?,
      skipFirstNewline_of_avoids (hs.append h.ne_nil rest), readBasicLines_of_lines h hbasic]
  | basicBlock hn h =>
    rw [List.cons_append, List.cons_append, List.cons_append, readText?, List.append_assoc,
      skipFirstNewline_append hn, readBasicLines_of_lines h hbasic]
  | literalLines hs h =>
    rw [List.cons_append, List.cons_append, List.cons_append, readText?,
      skipFirstNewline_of_avoids (hs.append h.ne_nil rest), readLiteralLines_of_lines h hliteral]
  | literalBlock hn h =>
    rw [List.cons_append, List.cons_append, List.cons_append, readText?, List.append_assoc,
      skipFirstNewline_append hn, readLiteralLines_of_lines h hliteral]

end Quoted

end Predication.Toml
