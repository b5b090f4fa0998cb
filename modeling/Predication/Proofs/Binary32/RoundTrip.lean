import Predication.Proofs.Binary32.Numeral
import Predication.Proofs.Text.Token

namespace Predication.Binary32

open Text

section

variable {t : List Char} {n : Numeral} (h : Numeral.read? t = some n)

include h

theorem head_of_read? : ∃ c cs, t = c :: cs ∧ '.' ≤ c ∧ c ≤ '9' := by
  cases t with
  | nil => cases h
  | cons c cs =>
    refine ⟨c, cs, rfl, ?_⟩
    by_cases hd : isDigit c = true
    · rw [isDigit, Bool.and_eq_true, decide_eq_true_eq, decide_eq_true_eq] at hd
      exact ⟨le_trans (by decide) hd.1, hd.2⟩
    · by_cases hpoint : c = '.'
      · rw [hpoint]
        decide
      · simp [Numeral.read?, hd, hpoint] at h

theorem readUnsigned?_of_read? :
    readUnsigned? t = some (some (nearestDecimal n.digits n.exponent)) := by
  obtain ⟨c, cs, rfl, -, hc⟩ := head_of_read? h
  have hlower : c.toLower = c := by
    have hsmall : ¬ 'A' ≤ c := not_le.mpr (lt_of_le_of_lt hc (by decide))
    exact dif_neg fun hupper => hsmall hupper.1
  have hname : ∀ d ds, '9' < d → lowerAscii (c :: cs) ≠ d :: ds := by
    intro d ds hd hname
    rw [lowerAscii, List.map_cons, hlower, List.cons.injEq] at hname
    exact absurd (hname.1 ▸ hd) (not_lt.mpr hc)
  unfold readUnsigned?
  rw [if_neg, if_neg, h]
  · rfl
  · exact hname 'n' ['a', 'n'] (by decide)
  · rintro (hinf | hinf)
    · exact hname 'i' ['n', 'f'] (by decide) hinf
    · exact hname 'i' "nfinity".toList (by decide) hinf

end

theorem read?_sign (neg : Bool) {c : Char} {cs : List Char} (hc : '-' < c) :
    read? (if neg then '-' :: c :: cs else c :: cs) =
      (readUnsigned? (c :: cs)).map (signed neg) := by
  have hplus : c ≠ '+' := ne_of_gt (lt_trans (by decide) hc)
  have hminus : c ≠ '-' := ne_of_gt hc
  cases neg with
  | true => rfl
  | false => simp [read?, hplus, hminus]

theorem read?_numeral {t : List Char} {n : Numeral} (h : Numeral.read? t = some n) (neg : Bool) :
    read? (if neg then '-' :: t else t) =
      some (ofMagnitude neg (nearestDecimal n.digits n.exponent)) := by
  have hread := readUnsigned?_of_read? h
  obtain ⟨c, cs, rfl, hc, -⟩ := head_of_read? h
  rw [read?_sign neg (lt_of_lt_of_le (by decide) hc), hread]
  rfl

/-- Reading a numeral is rounding what it denotes to the nearest number, infinity being what lies
beyond the greatest. -/
theorem read?_isNearest {t : List Char} {n : Numeral} (h : Numeral.read? t = some n) :
    ∃ m, IsNearest n.value m ∧ ∀ neg : Bool,
      read? (if neg then '-' :: t else t) = some (ofMagnitude neg (min infinityMagnitude m)) := by
  obtain ⟨m, hm, hnear⟩ := nearestDecimal_isNearest n.digits n.exponent
  refine ⟨m, hm, ?_⟩
  intro neg
  rw [read?_numeral h neg, hnear]

section

variable {m : Nat} (hm : 0 < m) (hfinite : m < infinityMagnitude)

include hm

theorem finiteText_eq :
    finiteText .plain m =
      positional false (shortest m).trimmed.1 (shortest m).trimmed.2 := by
  simp only [finiteText, if_neg hm.ne', Layout.plain, if_true]

include hfinite

theorem finiteText_shortest :
    ∃ ds e, finiteText .plain m = positional false ds e ∧ ds ≠ [] ∧
      (∀ c ∈ ds, isDigit c = true) ∧ nearestDecimal (digitsValue ds) e = m ∧
      ∀ c e', 0 < c → nearestDecimal c e' = m → ds.length ≤ (Nat.toDigits 10 c).length := by
  obtain ⟨hback, hleast⟩ := nearestDecimal_shortest hm hfinite
  obtain ⟨hne, hds, hlen, hvalue⟩ := trimmed_spec (within_shortest hm).1
  refine ⟨_, _, finiteText_eq hm, hne, hds, ?_, ?_⟩
  · rw [nearestDecimal_eq_iff hfinite] at hback ⊢
    rw [hvalue]
    exact hback
  · intro c e' hc hread
    exact hlen.trans (hleast c e' hc hread)

end

theorem read?_finiteText {m : Nat} (hfinite : m < infinityMagnitude) :
    ∃ n, Numeral.read? (finiteText .plain m) = some n ∧ nearestDecimal n.digits n.exponent = m := by
  rcases Nat.eq_zero_or_pos m with rfl | hm
  · exact ⟨⟨0, 0⟩, rfl, rfl⟩
  · obtain ⟨ds, e, htext, hne, hds, hnear, -⟩ := finiteText_shortest hm hfinite
    obtain ⟨n, hn, hvalue⟩ := read?_positional hne hds e
    refine ⟨n, by rw [htext, hn], ?_⟩
    rw [nearestDecimal_eq_iff hfinite] at hnear ⊢
    rw [← Numeral.value, hvalue]
    exact hnear

theorem ofMagnitude_magnitude (x : Binary32) : ofMagnitude x.negative x.magnitude = x := by
  obtain ⟨b⟩ := x
  have hlt : b.toNat < 2 ^ 32 := b.toNat_lt
  have hbits : (if 0x80000000 ≤ b.toNat then 0x80000000 + b.toNat % 0x80000000
      else b.toNat % 0x80000000) = b.toNat := by
    split <;> omega
  simp [ofMagnitude, negative, magnitude, hbits]

theorem magnitude_ofMagnitude {m : Nat} (hm : m ≤ infinityMagnitude) (neg : Bool) :
    (ofMagnitude neg m).magnitude = m := by
  unfold infinityMagnitude at hm
  have hbits : (if neg then 0x80000000 + m else m) < 2 ^ 32 := by
    split <;> omega
  rw [magnitude, ofMagnitude, UInt32.toNat_ofNat_of_lt' hbits]
  split <;> omega

def magnitudeText (m : Nat) : List Char :=
  if m = infinityMagnitude then "inf".toList else finiteText .plain m

theorem text_of_isNaN {x : Binary32} (h : x.isNaN = true) : x.text .plain = "NaN".toList := by
  rw [text, if_pos h]

theorem text_of_not_isNaN {x : Binary32} (h : x.isNaN = false) :
    x.text .plain =
      if x.negative then '-' :: magnitudeText x.magnitude else magnitudeText x.magnitude := by
  simp [text, h, magnitudeText, isInfinite]

theorem readUnsigned?_magnitudeText {m : Nat} (hm : m ≤ infinityMagnitude) :
    ∃ c cs, magnitudeText m = c :: cs ∧ '-' < c ∧ readUnsigned? (c :: cs) = some (some m) := by
  unfold magnitudeText
  split
  · next hinf => exact ⟨'i', ['n', 'f'], rfl, by decide, by rw [hinf]; rfl⟩
  · next hinf =>
    obtain ⟨n, hn, hnear⟩ := read?_finiteText (lt_of_le_of_ne hm hinf)
    have hread := readUnsigned?_of_read? hn
    obtain ⟨c, cs, hcs, hc, -⟩ := head_of_read? hn
    rw [hcs, hnear] at hread
    exact ⟨c, cs, hcs, lt_of_lt_of_le (by decide) hc, hread⟩

theorem isNaN_nan : nan.isNaN = true := by
  decide

theorem read?_plainText (x : Binary32) :
    read? (x.text .plain) = some (if x.isNaN then nan else x) := by
  cases hnan : x.isNaN with
  | true =>
    rw [text_of_isNaN hnan]
    rfl
  | false =>
    have hle : x.magnitude ≤ infinityMagnitude := by simpa [isNaN] using hnan
    obtain ⟨c, cs, htext, hc, hread⟩ := readUnsigned?_magnitudeText hle
    rw [text_of_not_isNaN hnan, htext, read?_sign x.negative hc, hread]
    exact congrArg some (ofMagnitude_magnitude x)

theorem mem_magnitudeText {m : Nat} {c : Char} (hm : m ≤ infinityMagnitude)
    (h : c ∈ magnitudeText m) : isDigit c = true ∨ c ∈ ['.', 'i', 'n', 'f'] := by
  unfold magnitudeText at h
  split at h
  · exact .inr (List.mem_cons_of_mem '.' h)
  · next hinf =>
    rcases Nat.eq_zero_or_pos m with rfl | hpos
    · rw [List.mem_singleton.mp h]
      exact .inl (by decide)
    · obtain ⟨ds, e, htext, -, hds, -⟩ := finiteText_shortest hpos (lt_of_le_of_ne hm hinf)
      rw [htext] at h
      refine (mem_positional hds h).imp_right ?_
      rintro rfl
      exact List.mem_cons_self

theorem mem_text {x : Binary32} {c : Char} (h : c ∈ x.text .plain) :
    isDigit c = true ∨ c ∈ ['-', 'N', 'a', '.', 'i', 'n', 'f'] := by
  cases hnan : x.isNaN with
  | true =>
    rw [text_of_isNaN hnan] at h
    have hname : c ∈ ['N', 'a', 'N'] := h
    right
    simp only [List.mem_cons, List.not_mem_nil, or_false] at hname ⊢
    tauto
  | false =>
    have hle : x.magnitude ≤ infinityMagnitude := by simpa [isNaN] using hnan
    have hmagnitude : c = '-' ∨ c ∈ magnitudeText x.magnitude := by
      rw [text_of_not_isNaN hnan] at h
      split at h
      · exact List.mem_cons.mp h
      · exact .inr h
    rcases hmagnitude with rfl | hc
    · exact .inr List.mem_cons_self
    · refine (mem_magnitudeText hle hc).imp_right ?_
      intro hmem
      exact List.mem_append_right ['-', 'N', 'a'] hmem

/-- A number that is neither zero nor infinite is printed with digits and a point at most, and no
numeral that is read as this number has fewer digits. -/
theorem text_shortest {x : Binary32} (hpos : 0 < x.magnitude)
    (hfinite : x.magnitude < infinityMagnitude) :
    ∃ ds e, x.text .plain =
        (if x.negative then '-' :: positional false ds e else positional false ds e) ∧
      (∀ c ∈ ds, isDigit c = true) ∧
      ∀ t n, Numeral.read? t = some n → read? (if x.negative then '-' :: t else t) = some x →
        ds.length ≤ (Nat.toDigits 10 n.digits).length := by
  have hnan : x.isNaN = false := by simpa [isNaN] using hfinite.le
  obtain ⟨ds, e, htext, -, hds, -, hleast⟩ := finiteText_shortest hpos hfinite
  refine ⟨ds, e, ?_, hds, ?_⟩
  · rw [text_of_not_isNaN hnan, magnitudeText, if_neg hfinite.ne, htext]
  · intro t n hn hread
    obtain ⟨m, -, hnear⟩ := nearestDecimal_isNearest n.digits n.exponent
    rw [read?_numeral hn, Option.some.injEq] at hread
    have hmagnitude := magnitude_ofMagnitude (hnear ▸ Nat.min_le_left _ _) x.negative
    rw [hread] at hmagnitude
    refine hleast n.digits n.exponent ?_ hmagnitude.symm
    refine Nat.pos_of_ne_zero fun hzero => hpos.ne' ?_
    rw [hmagnitude, hzero]
    rfl

theorem isToken_text (x : Binary32) : IsToken (x.text .plain) := by
  constructor
  · intro hnil
    have hread := read?_plainText x
    rw [hnil] at hread
    cases hread
  · intro c hc
    rcases mem_text hc with hdigit | hmem
    · exact isBlank_of_isDigit hdigit
    · have hletters : ∀ d ∈ ['-', 'N', 'a', '.', 'i', 'n', 'f'], isBlank d = false := by
        simp [isBlank]
      exact hletters c hmem

end Predication.Binary32
