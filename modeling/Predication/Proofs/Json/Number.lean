import Mathlib.Data.List.Basic
import Predication.Proofs.Json.Grammar
import Predication.Proofs.Text.Decimal

namespace Predication.Json

open Text (isDigit)

def Breaks (rest : List Char) : Prop :=
  ∀ c ∈ rest.head?, isDigit c = false ∧ c ≠ '.' ∧ c ≠ 'e' ∧ c ≠ 'E'

theorem breaks_nil : Breaks [] := by
  simp [Breaks]

theorem breaks_cons {c : Char} (hd : isDigit c = false) (hc : c ≠ '.' ∧ c ≠ 'e' ∧ c ≠ 'E')
    (rest : List Char) : Breaks (c :: rest) := by
  intro a ha
  cases ha
  exact ⟨hd, hc⟩

theorem ne_of_isDigit {c d : Char} (h : isDigit c = true) (hd : isDigit d = false) : c ≠ d := by
  rintro rfl
  exact absurd h (by rw [hd]; decide)

def Ends (rest : List Char) : Prop :=
  ∀ c ∈ rest.head?, isDigit c = false

theorem Breaks.ends {rest : List Char} (h : Breaks rest) : Ends rest :=
  fun c hc => (h c hc).1

section Digits

variable {cs ds rest : List Char}

theorem span_digits (hd : ∀ c ∈ ds, isDigit c = true) (hr : Ends rest) :
    (ds ++ rest).takeWhile isDigit = ds ∧ (ds ++ rest).dropWhile isDigit = rest := by
  rw [List.takeWhile_append_of_pos hd, List.dropWhile_append_of_pos hd]
  cases rest with
  | nil => simp
  | cons c rest =>
    have hc := hr c rfl
    simp [hc]

theorem skipDigits?_digits (hd : Digits ds) (hr : Ends rest) :
    skipDigits? (ds ++ rest) = some rest := by
  obtain ⟨hne, hd⟩ := hd
  cases ds with
  | nil => exact absurd rfl hne
  | cons d ds =>
    have hds : ∀ c ∈ ds, isDigit c = true := fun c hc => hd c (List.mem_cons_of_mem d hc)
    rw [List.cons_append, skipDigits?, if_pos (hd d List.mem_cons_self), (span_digits hds hr).2]

theorem digits_of_skipDigits? (h : skipDigits? cs = some rest) :
    ∃ ds, cs = ds ++ rest ∧ Digits ds := by
  cases cs with
  | nil => cases h
  | cons c cs =>
    rw [skipDigits?] at h
    split at h
    · next hc =>
      cases h
      refine ⟨c :: cs.takeWhile isDigit, ?_, List.cons_ne_nil _ _, ?_⟩
      · rw [List.cons_append, List.takeWhile_append_dropWhile]
      · exact List.forall_mem_cons.mpr ⟨hc, List.all_eq_true.mp List.all_takeWhile⟩
    · cases h

theorem wholePart?_toDigits (n : Nat) (hr : Ends rest) :
    wholePart? (Nat.toDigits 10 n ++ rest) = some (Nat.toDigits 10 n, rest) := by
  by_cases h0 : n = 0
  · subst h0
    rfl
  · obtain ⟨d, ds, hd, hne⟩ := Text.head_toDigits (Nat.pos_of_ne_zero h0)
    have hdig : ∀ c ∈ d :: ds, isDigit c = true := by
      intro c hc
      exact Text.isDigit_of_mem_toDigits (hd ▸ hc)
    obtain ⟨ht, hw⟩ := span_digits (fun c hc => hdig c (List.mem_cons_of_mem _ hc)) hr
    rw [hd, List.cons_append, wholePart?, if_neg hne, if_pos (hdig d (by simp)), ht, hw]

theorem toDigits_of_wholePart? (h : wholePart? cs = some (ds, rest)) :
    cs = ds ++ rest ∧ ∃ n, ds = Nat.toDigits 10 n := by
  cases cs with
  | nil => cases h
  | cons c cs =>
    rw [wholePart?] at h
    split at h
    · next hc =>
      cases h
      exact ⟨by rw [hc]; rfl, 0, rfl⟩
    · next hc =>
      split at h
      · next hd =>
        cases h
        have hall : ∀ d ∈ c :: cs.takeWhile isDigit, isDigit d = true :=
          List.forall_mem_cons.mpr ⟨hd, List.all_eq_true.mp List.all_takeWhile⟩
        refine ⟨?_, _, (Text.toDigits_digitsValue hc hall).symm⟩
        rw [List.cons_append, List.takeWhile_append_dropWhile]
      · cases h

end Digits

section Tail

variable {cs f e rest : List Char}

theorem skipSign_digits {sign ds : List Char} (hs : sign = [] ∨ sign = ['+'] ∨ sign = ['-'])
    (hd : Digits ds) : skipSign (sign ++ (ds ++ rest)) = ds ++ rest := by
  rcases hs with rfl | rfl | rfl
  · obtain ⟨hne, hd⟩ := hd
    cases ds with
    | nil => exact absurd rfl hne
    | cons d ds =>
      have hdig := hd d List.mem_cons_self
      rw [List.nil_append, List.cons_append, skipSign.eq_def]
      split
      · next heq => exact absurd (List.cons.inj heq).1 (ne_of_isDigit hdig (by decide))
      · next heq => exact absurd (List.cons.inj heq).1 (ne_of_isDigit hdig (by decide))
      · rfl
  · rfl
  · rfl

theorem sign_of_skipSign (cs : List Char) :
    ∃ sign, (sign = [] ∨ sign = ['+'] ∨ sign = ['-']) ∧ cs = sign ++ skipSign cs := by
  unfold skipSign
  split
  · exact ⟨['+'], .inr (.inl rfl), rfl⟩
  · exact ⟨['-'], .inr (.inr rfl), rfl⟩
  · exact ⟨[], .inl rfl, rfl⟩

theorem Exponent.ends_append (he : Exponent e) (hr : Ends rest) :
    Ends (e ++ rest) := by
  cases he with
  | absent => exact hr
  | digits he =>
    intro c hc
    cases hc
    rcases he with rfl | rfl <;> rfl

theorem Fraction.ends_append (hf : Fraction f) (hr : Ends rest) :
    Ends (f ++ rest) := by
  cases hf with
  | absent => exact hr
  | digits hd =>
    intro c hc
    cases hc
    rfl

def skipExponent? (cs : List Char) : Option (List Char) :=
  match cs with
  | 'e' :: rest => skipDigits? (skipSign rest)
  | 'E' :: rest => skipDigits? (skipSign rest)
  | _ => some cs

theorem skipExponent?_append (he : Exponent e) (hr : Breaks rest) :
    skipExponent? (e ++ rest) = some rest := by
  cases he with
  | absent =>
    rw [List.nil_append, skipExponent?.eq_def]
    split
    · exact absurd rfl (hr 'e' rfl).2.2.1
    · exact absurd rfl (hr 'E' rfl).2.2.2
    · rfl
  | @digits e sign ds he hs hd =>
    have hdigits : skipDigits? (skipSign (sign ++ ds ++ rest)) = some rest := by
      rw [List.append_assoc, skipSign_digits hs hd, skipDigits?_digits hd hr.ends]
    rcases he with rfl | rfl
    · exact hdigits
    · exact hdigits

theorem exponent_of_skipExponent? (h : skipExponent? cs = some rest) :
    ∃ e, cs = e ++ rest ∧ Exponent e := by
  have signed {c : Char} {r : List Char} (hc : c = 'e' ∨ c = 'E')
      (hr : skipDigits? (skipSign r) = some rest) : ∃ e, c :: r = e ++ rest ∧ Exponent e := by
    obtain ⟨sign, hs, hsign⟩ := sign_of_skipSign r
    obtain ⟨ds, hds, hd⟩ := digits_of_skipDigits? hr
    refine ⟨c :: (sign ++ ds), ?_, .digits hc hs hd⟩
    rw [hsign, hds, List.cons_append, List.append_assoc]
  rw [skipExponent?.eq_def] at h
  split at h
  · exact signed (.inl rfl) h
  · exact signed (.inr rfl) h
  · cases h
    exact ⟨[], rfl, .absent⟩

theorem skipTail?_point (cs : List Char) :
    skipTail? ('.' :: cs) = (skipDigits? cs).bind skipExponent? := rfl

theorem skipTail?_of_head (h : '.' ∉ cs.head?) : skipTail? cs = skipExponent? cs := by
  rw [skipTail?]
  · rfl
  · rintro r rfl
    exact h rfl

theorem skipTail?_append (hf : Fraction f) (he : Exponent e) (hr : Breaks rest) :
    skipTail? (f ++ (e ++ rest)) = some rest := by
  cases hf with
  | absent =>
    rw [List.nil_append, skipTail?_of_head ?_, skipExponent?_append he hr]
    intro hp
    cases he with
    | absent => exact (hr '.' hp).2.1 rfl
    | digits he =>
      cases hp
      rcases he with he | he <;> cases he
  | @digits ds hd =>
    have hends : Ends (e ++ rest) := he.ends_append hr.ends
    rw [List.cons_append, skipTail?_point, skipDigits?_digits hd hends, Option.bind_some,
      skipExponent?_append he hr]

theorem tail_of_skipTail? (h : skipTail? cs = some rest) :
    ∃ f e, cs = f ++ (e ++ rest) ∧ Fraction f ∧ Exponent e := by
  by_cases hp : '.' ∈ cs.head?
  · obtain ⟨r, rfl⟩ := List.head?_eq_some_iff.mp hp
    rw [skipTail?_point, Option.bind_eq_some_iff] at h
    obtain ⟨mid, hs, hrest⟩ := h
    obtain ⟨ds, rfl, hd⟩ := digits_of_skipDigits? hs
    obtain ⟨e, rfl, he⟩ := exponent_of_skipExponent? hrest
    exact ⟨'.' :: ds, e, rfl, .digits hd, he⟩
  · rw [skipTail?_of_head hp] at h
    obtain ⟨e, rfl, he⟩ := exponent_of_skipExponent? h
    exact ⟨[], e, rfl, .absent, he⟩

end Tail

section Number

variable {cs rest : List Char}

theorem readNumber_of_wholePart? {ds after : List Char} (hw : wholePart? cs = some (ds, after)) :
    readNumber cs = (skipTail? after).map fun rest =>
      (.number (if rest.length = after.length then some (Text.digitsValue ds) else none),
        rest) := by
  unfold readNumber
  split
  · -- no whole part begins with a sign
    cases hw
  · rw [hw, Option.bind_eq_bind, Option.bind_some]
    dsimp only
    cases skipTail? after <;> rfl

theorem length_ne_of_tail {f e : List Char} (hne : f ++ e ≠ []) :
    rest.length ≠ (f ++ (e ++ rest)).length := by
  have hpos := List.length_pos_iff.mpr hne
  rw [List.length_append] at hpos
  rw [List.length_append, List.length_append]
  omega

theorem readNumber_number {value : Option Nat} (h : Number cs value) (hr : Breaks rest) :
    readNumber (cs ++ rest) = some (.number value, rest) := by
  cases h with
  | plain n =>
    have ht : skipTail? rest = some rest := skipTail?_append .absent .absent hr
    rw [readNumber_of_wholePart? (wholePart?_toDigits n hr.ends), ht, Option.map_some, if_pos rfl,
      Text.digitsValue_toDigits]
  | @tail n f e hf he hne =>
    have hends : Ends (f ++ (e ++ rest)) := hf.ends_append (he.ends_append hr.ends)
    rw [List.append_assoc, List.append_assoc,
      readNumber_of_wholePart? (wholePart?_toDigits n hends), skipTail?_append hf he hr,
      Option.map_some, if_neg (length_ne_of_tail hne)]
  | @negative n f e hf he =>
    have hends : Ends (f ++ (e ++ rest)) := hf.ends_append (he.ends_append hr.ends)
    simp only [List.cons_append, List.append_assoc, readNumber, wholePart?_toDigits n hends,
      skipTail?_append hf he hr, Option.bind_eq_bind, Option.bind_some]

theorem number_of_readNumber {v : Json} (h : readNumber cs = some (v, rest)) :
    ∃ ds value, cs = ds ++ rest ∧ v = .number value ∧ Number ds value := by
  unfold readNumber at h
  split at h
  · simp only [Option.bind_eq_bind, Option.bind_eq_some_iff] at h
    obtain ⟨⟨ds, after⟩, hw, last, ht, heq⟩ := h
    cases heq
    obtain ⟨rfl, n, rfl⟩ := toDigits_of_wholePart? hw
    obtain ⟨f, e, rfl, hf, he⟩ := tail_of_skipTail? ht
    refine ⟨_, none, ?_, rfl, .negative n hf he⟩
    simp only [List.cons_append, List.append_assoc]
  · simp only [Option.bind_eq_bind, Option.bind_eq_some_iff] at h
    obtain ⟨⟨ds, after⟩, hw, last, ht, heq⟩ := h
    cases heq
    obtain ⟨rfl, n, rfl⟩ := toDigits_of_wholePart? hw
    obtain ⟨f, e, rfl, hf, he⟩ := tail_of_skipTail? ht
    by_cases hne : f ++ e = []
    · rw [← List.append_assoc f, hne, List.nil_append]
      exact ⟨_, _, rfl, rfl, by rw [if_pos rfl, Text.digitsValue_toDigits]; exact .plain n⟩
    · rw [if_neg (length_ne_of_tail hne)]
      refine ⟨_, none, ?_, rfl, .tail n hf he hne⟩
      simp only [List.append_assoc]

end Number

end Predication.Json
