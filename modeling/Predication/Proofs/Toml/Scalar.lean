import Predication.Proofs.Toml.Number
import Predication.Toml.Reader

namespace Predication.Toml

open Json (HexDigit)
open Text (isDigit digitsValue)

section Moment

variable {cs rest : List Char}

theorem twoDigits?_append {low high n : Nat} (h : TwoDigits low high cs n) (rest : List Char) :
    twoDigits? low high (cs ++ rest) = some (n, rest) := by
  cases h with
  | @mk a b ha hb hl hh =>
    have hin : (isDigit a && isDigit b && low ≤ digitsValue [a, b] && digitsValue [a, b] ≤ high) =
        true := by
      simp only [Bool.and_eq_true, decide_eq_true_eq]
      exact ⟨⟨⟨ha, hb⟩, hl⟩, hh⟩
    rw [List.cons_append, List.singleton_append, twoDigits?]
    exact if_pos hin

theorem date?_append (h : Date cs) (rest : List Char) : date? (cs ++ rest) = some rest := by
  cases h with
  | @mk a b c d month m day n ha hb hc hd hm hn =>
    have hall : [a, b, c, d].all isDigit = true := by
      simp only [List.all_cons, List.all_nil, Bool.and_true, Bool.and_eq_true]
      exact ⟨ha, hb, hc, hd⟩
    simp only [List.cons_append, List.append_assoc]
    rw [date?, if_pos hall, twoDigits?_append hm]
    simp only
    rw [twoDigits?_append hn]
    rfl

theorem time?_append (h : Time cs) (hr : Stops (fun c => isDigit c || c == '.') rest) :
    time? (cs ++ rest) = some rest := by
  cases h with
  | @mk hour h minute m second s instant hh hm hs hi =>
    simp only [List.cons_append, List.append_assoc]
    rw [time?, twoDigits?_append hh]
    simp only
    rw [twoDigits?_append hm]
    simp only
    rw [twoDigits?_append hs]
    cases hi with
    | whole =>
      rw [List.nil_append]
      cases rest with
      | nil => rfl
      | cons c rest =>
        have hc := hr c rfl
        rw [Bool.or_eq_false_iff, beq_eq_false_iff_ne] at hc
        split
        · next heq =>
          obtain ⟨-, he⟩ := Prod.mk.inj (Option.some.inj heq)
          exact absurd (List.cons.inj he).1 hc.2
        · next heq => rw [(Prod.mk.inj (Option.some.inj heq)).2]
        · next heq => cases heq
    | @split d ds hd hds =>
      have hstop : Stops isDigit rest := fun c hc => (Bool.or_eq_false_iff.mp (hr c hc)).1
      have hrun : ∀ c ∈ d :: ds, isDigit c = true := List.forall_mem_cons.mpr ⟨hd, hds⟩
      have hhead : (((d :: ds) ++ rest).head?.map isDigit).getD false = true := hd
      rw [List.cons_append]
      simp only
      rw [if_pos hhead, dropWhile_run hrun hstop]

theorem Offset.stops (h : Offset cs) : Stops (fun c => isDigit c || c == '.') cs := by
  cases h with
  | absent => exact stops_nil
  | universal hc => rcases hc with rfl | rfl <;> exact stops_cons rfl _
  | numeric hc hh hm => rcases hc with rfl | rfl <;> exact stops_cons rfl _

theorem Offset.isOffset (h : Offset cs) : (cs.isEmpty || isOffset cs) = true := by
  cases h with
  | absent => rfl
  | universal hc => rcases hc with rfl | rfl <;> rfl
  | @numeric c hour h minute m hc hh hm =>
    have hsign : (c == '+' || c == '-') = true := by
      rcases hc with rfl | rfl <;> rfl
    have hminute := twoDigits?_append hm []
    rw [List.append_nil] at hminute
    rw [Toml.isOffset, hsign, twoDigits?_append hh]
    · simp only [hminute]
      rfl
    · intro hz
      rcases hc with rfl | rfl <;> exact absurd hz (by decide)
    · intro hz
      rcases hc with rfl | rfl <;> exact absurd hz (by decide)

theorem isOffsetTime_append {t o : List Char} (ht : Time t) (ho : Offset o) :
    isOffsetTime (t ++ o) = true := by
  rw [isOffsetTime, time?_append ht ho.stops]
  exact ho.isOffset

theorem isMoment_date (h : Date cs) : isMoment cs = true := by
  have hdate := date?_append h []
  rw [List.append_nil] at hdate
  rw [isMoment, hdate]

theorem isMoment_time (h : Time cs) : isMoment cs = true := by
  have htime := time?_append h stops_nil
  rw [List.append_nil] at htime
  have hdate : date? cs = none := by
    cases h with
    | mk hh hm hs hi =>
      cases hh with
      | mk ha hb hl hh =>
        cases hm with
        | @mk x y hx hy hl hh =>
          -- the fifth character is a digit of the minute, where a date has a hyphen
          rw [List.cons_append, List.singleton_append, List.cons_append, List.singleton_append,
            date?.eq_def]
          split
          · next heq =>
            simp only [List.cons.injEq] at heq
            exact absurd heq.2.2.2.2.1 (hy.ne (by decide))
          · rfl
  rw [isMoment, hdate, htime]
  rfl

theorem isMoment_both {d t o : List Char} {c : Char} (hd : Date d) (hc : c = 'T' ∨ c = 't')
    (ht : Time t) (ho : Offset o) : isMoment (d ++ c :: (t ++ o)) = true := by
  have hletter : (c == 'T' || c == 't') = true := by
    rcases hc with rfl | rfl <;> rfl
  rw [isMoment, date?_append hd]
  simp only
  rw [hletter, isOffsetTime_append ht ho, Bool.and_self]

end Moment

section Word

variable {cs ds : List Char} {c : Char}

def Word (cs : List Char) : Prop :=
  ∀ c ∈ cs, isScalarChar c = true

@[simp] theorem word_nil : Word [] := by
  simp [Word]

@[simp] theorem word_cons : Word (c :: cs) ↔ isScalarChar c = true ∧ Word cs := by
  simp [Word]

@[simp] theorem word_append : Word (cs ++ ds) ↔ Word cs ∧ Word ds := by
  simp [Word, or_imp, forall_and]

theorem Decimal.isScalarChar (h : Decimal c) : isScalarChar c = true := by
  rw [Decimal] at h
  simp [Toml.isScalarChar, h]

theorem isScalarChar_of_hexDigit {n : Nat} (h : HexDigit c n) : isScalarChar c = true := by
  have hall : ∀ n < 16, isScalarChar (Nat.digitChar n) = true ∧
      isScalarChar (Nat.digitChar n).toUpper = true := by decide
  obtain ⟨hn, rfl | rfl⟩ := h
  · exact (hall n hn).1
  · exact (hall n hn).2

theorem word_of_digits {P : Char → Prop} (hP : ∀ c, P c → isScalarChar c = true)
    (h : ∀ c ∈ cs, P c ∨ c = '_') : Word cs := by
  intro c hc
  rcases h c hc with hc | rfl
  · exact hP c hc
  · rfl

theorem Sign.word (h : Sign cs) : Word cs := by
  cases h <;> simp <;> decide

theorem Whole.word (h : Whole cs) : Word cs :=
  word_of_digits (fun _ h => h.isScalarChar) h.forall_mem

theorem DigitRun.word (h : DigitRun Decimal cs) : Word cs :=
  word_of_digits (fun _ h => h.isScalarChar) h.forall_mem

theorem Integer.word (h : Integer cs) : Word cs := by
  cases h with
  | decimal hs hd hr => exact word_append.mpr ⟨hs.word, hd.word⟩
  | based hb hd hr =>
    refine word_cons.mpr ⟨rfl, word_cons.mpr ⟨?_, ?_⟩⟩
    · cases hb <;> rfl
    · refine word_of_digits ?_ hd.forall_mem
      rintro c ⟨n, -, hc⟩
      exact isScalarChar_of_hexDigit hc

theorem Fraction.word (h : Fraction cs ds) : Word cs := by
  cases h with
  | absent => exact word_nil
  | places h => exact word_cons.mpr ⟨rfl, h.word⟩

theorem Exponent.word {power : Int} (h : Exponent cs power) : Word cs := by
  cases h with
  | absent => exact word_nil
  | @up e sign ds he hs h =>
    have hsign : Word sign := by
      rcases hs with rfl | rfl
      · exact Sign.absent.word
      · exact Sign.plus.word
    refine word_cons.mpr ⟨?_, word_append.mpr ⟨hsign, h.word⟩⟩
    rcases he with rfl | rfl <;> rfl
  | down he h =>
    refine word_cons.mpr ⟨?_, word_cons.mpr ⟨rfl, h.word⟩⟩
    rcases he with rfl | rfl <;> rfl

theorem Float.word (h : Float cs) : Word cs := by
  cases h with
  | finite hs hw hf he hne hr =>
    simp only [word_append]
    exact ⟨hs.word, hw.word, hf.word, he.word⟩
  | infinity hs => exact word_append.mpr ⟨hs.word, by simp; decide⟩
  | notNumber hs => exact word_append.mpr ⟨hs.word, by simp; decide⟩

theorem TwoDigits.word {low high n : Nat} (h : TwoDigits low high cs n) : Word cs := by
  cases h with
  | mk ha hb hl hh => simp [ha.isScalarChar, hb.isScalarChar]

theorem Date.word (h : Date cs) : Word cs := by
  cases h with
  | mk ha hb hc hd hm hn =>
    simp only [word_cons, word_append]
    exact ⟨ha.isScalarChar, hb.isScalarChar, hc.isScalarChar, hd.isScalarChar, rfl, hm.word, rfl,
      hn.word⟩

theorem Instant.word (h : Instant cs) : Word cs := by
  cases h with
  | whole => exact word_nil
  | split hd h =>
    exact word_cons.mpr ⟨rfl, word_cons.mpr ⟨hd.isScalarChar, fun c hc => (h c hc).isScalarChar⟩⟩

theorem Time.word (h : Time cs) : Word cs := by
  cases h with
  | mk hh hm hs hi =>
    simp only [word_cons, word_append]
    exact ⟨hh.word, rfl, hm.word, rfl, hs.word, hi.word⟩

theorem Offset.word (h : Offset cs) : Word cs := by
  cases h with
  | absent => exact word_nil
  | universal hc => rcases hc with rfl | rfl <;> simp <;> decide
  | numeric hc hh hm =>
    simp only [word_cons, word_append]
    refine ⟨?_, hh.word, rfl, hm.word⟩
    rcases hc with rfl | rfl <;> rfl

end Word

section Ends

variable {cs rest : List Char}

/-- What follows a value: after spaces, the end of its line, or of the array or table around it. -/
def Ends (rest : List Char) : Prop :=
  ∀ c ∈ (skipSpace rest).head?, c ∈ [',', ']', '\x7d', '#', '\n', '\r']

theorem ends_nil : Ends [] := by
  simp [Ends, skipSpace]

theorem ends_cons {c : Char} (h : c ∈ [',', ']', '\x7d', '#', '\n', '\r']) (rest : List Char) :
    Ends (c :: rest) := by
  have hspace : isSpace c = false := by
    simp only [List.mem_cons, List.not_mem_nil, or_false] at h
    rcases h with rfl | rfl | rfl | rfl | rfl | rfl <;> rfl
  rw [Ends, skipSpace, List.dropWhile_cons_of_neg (by rw [hspace]; decide)]
  intro d hd
  cases hd
  exact h

theorem Ends.cons_space {c : Char} (hc : isSpace c = true) (h : Ends rest) : Ends (c :: rest) := by
  rw [Ends, skipSpace, List.dropWhile_cons_of_pos hc]
  exact h

theorem Ends.tail {c : Char} (h : Ends (c :: rest)) (hc : isSpace c = true) : Ends rest := by
  rw [Ends, skipSpace, List.dropWhile_cons_of_pos hc] at h
  exact h

theorem Ends.head {c : Char} (h : Ends (c :: rest)) :
    c ∈ [' ', '\t', ',', ']', '\x7d', '#', '\n', '\r'] := by
  cases hc : isSpace c with
  | true =>
    rw [isSpace, Bool.or_eq_true, beq_iff_eq, beq_iff_eq] at hc
    rcases hc with rfl | rfl <;> decide
  | false =>
    rw [Ends, skipSpace, List.dropWhile_cons_of_neg (by rw [hc]; decide)] at h
    exact List.mem_cons_of_mem _ (List.mem_cons_of_mem _ (h c rfl))

theorem Ends.stops (h : Ends rest) : Stops isScalarChar rest := by
  cases rest with
  | nil => exact stops_nil
  | cons c rest =>
    have hc := h.head
    simp only [List.mem_cons, List.not_mem_nil, or_false] at hc
    rcases hc with rfl | rfl | rfl | rfl | rfl | rfl | rfl | rfl <;> exact stops_cons rfl rest

theorem Ends.avoids (h : Ends rest) : Avoids ['"', '\x27'] rest := by
  intro q hq hr
  cases rest with
  | nil => cases hr
  | cons c rest =>
    obtain rfl := Option.some.inj hr
    have hc := h.head
    simp only [List.mem_cons, List.not_mem_nil, or_false] at hq hc
    rcases hq with rfl | rfl <;> revert hc <;> decide

end Ends

section Scalar

variable {cs rest : List Char}

theorem Scalar.word_or_both (h : Scalar cs) :
    (Word cs ∧ isScalar cs = true) ∨
      ∃ d t o, cs = d ++ ' ' :: (t ++ o) ∧ Date d ∧ Time t ∧ Offset o := by
  cases h with
  | truth => exact .inl ⟨by simp; decide, by decide⟩
  | falsehood => exact .inl ⟨by simp; decide, by decide⟩
  | integer h =>
    refine .inl ⟨h.word, ?_⟩
    rw [isScalar, h.isInteger]
    simp only [Bool.or_true, Bool.true_or]
  | float h =>
    refine .inl ⟨h.word, ?_⟩
    rw [isScalar, Bool.or_assoc (isTruth cs || isInteger cs), h.isFloat]
    simp only [Bool.or_true, Bool.true_or]
  | moment h =>
    cases h with
    | date h =>
      refine .inl ⟨h.word, ?_⟩
      rw [isScalar, isMoment_date h, Bool.or_true]
    | time h =>
      refine .inl ⟨h.word, ?_⟩
      rw [isScalar, isMoment_time h, Bool.or_true]
    | @both d c t o hd hc ht ho =>
      rw [← or_assoc] at hc
      rcases hc with hc | rfl
      · refine .inl ⟨?_, ?_⟩
        · have hletter : isScalarChar c = true := by
            rcases hc with rfl | rfl <;> rfl
          simp only [word_append, word_cons]
          exact ⟨hd.word, hletter, ht.word, ho.word⟩
        · rw [isScalar, isMoment_both hd hc ht ho, Bool.or_true]
      · exact .inr ⟨d, t, o, rfl, hd, ht, ho⟩

theorem skipScalar?_of_word (hw : Word cs) (hs : isScalar cs = true) (hr : Ends rest) :
    skipScalar? (cs ++ rest) = some rest := by
  rw [skipScalar?, takeWhile_run hw hr.stops, dropWhile_run hw hr.stops, if_pos hs]
  split
  · next after hdate =>
    -- the space belongs to what follows, where no time can stand
    have hafter : after.takeWhile isScalarChar = [] := by
      have h := takeWhile_run word_nil (hr.tail rfl).stops
      rwa [List.nil_append] at h
    rw [hafter]
    rfl
  · rfl

theorem skipScalar?_of_both {d t o : List Char} (hd : Date d) (ht : Time t) (ho : Offset o)
    (hr : Ends rest) : skipScalar? (d ++ ' ' :: (t ++ o) ++ rest) = some rest := by
  have hspace : Stops isScalarChar (' ' :: (t ++ o ++ rest)) := stops_cons rfl _
  have hword : Word (t ++ o) := word_append.mpr ⟨ht.word, ho.word⟩
  have hscalar : isScalar d = true := by
    rw [isScalar, isMoment_date hd, Bool.or_true]
  have hdate := date?_append hd []
  rw [List.append_nil] at hdate
  rw [List.append_assoc, List.cons_append, skipScalar?, takeWhile_run hd.word hspace,
    dropWhile_run hd.word hspace, if_pos hscalar, hdate]
  simp only
  rw [takeWhile_run hword hr.stops, dropWhile_run hword hr.stops,
    if_pos (isOffsetTime_append ht ho)]

theorem skipScalar?_of_scalar (h : Scalar cs) (hr : Ends rest) :
    skipScalar? (cs ++ rest) = some rest := by
  rcases h.word_or_both with ⟨hw, hs⟩ | ⟨d, t, o, rfl, hd, ht, ho⟩
  · exact skipScalar?_of_word hw hs hr
  · exact skipScalar?_of_both hd ht ho hr

theorem Scalar.head (h : Scalar cs) : ∃ c r, cs = c :: r ∧ isScalarChar c = true := by
  rcases h.word_or_both with ⟨hw, hs⟩ | ⟨d, t, o, rfl, hd, -, -⟩
  · cases cs with
    | nil => cases hs
    | cons c cs => exact ⟨c, cs, rfl, hw c List.mem_cons_self⟩
  · cases hd with
    | mk ha => exact ⟨_, _, rfl, ha.isScalarChar⟩

end Scalar

end Predication.Toml
