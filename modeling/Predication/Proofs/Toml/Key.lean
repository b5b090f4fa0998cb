import Predication.Proofs.Toml.Scalar
import Predication.Proofs.Toml.Text

namespace Predication.Toml

section Space

variable {a cs rest : List Char}

theorem Space.isSpace (h : Space a) : ∀ c ∈ a, isSpace c = true :=
  fun c hc => isSpace_iff.mpr (h c hc)

theorem skipSpace_append (h : Space a) (rest : List Char) :
    skipSpace (a ++ rest) = skipSpace rest :=
  List.dropWhile_append_of_pos h.isSpace

theorem skipSpace_of_stops (h : Stops isSpace rest) : skipSpace rest = rest := by
  have hdrop := dropWhile_run (List.forall_mem_nil fun c => isSpace c = true) h
  rwa [List.nil_append] at hdrop

theorem skipSpace_cons {c : Char} (h : isSpace c = false) (rest : List Char) :
    skipSpace (c :: rest) = c :: rest :=
  skipSpace_of_stops (stops_cons h rest)

theorem skipSpace_idem (cs : List Char) : skipSpace (skipSpace cs) = skipSpace cs :=
  List.dropWhile_idempotent _ cs

theorem Ends.append_space (ha : Space a) (h : Ends rest) : Ends (a ++ rest) := by
  rw [Ends, skipSpace_append ha]
  exact h

end Space

section Key

variable {cs t ks rest : List Char} {parts : List String}

theorem isBareKeyChar_iff {c : Char} : isBareKeyChar c = true ↔ BareChar c := by
  simp only [isBareKeyChar, BareChar, Bool.or_eq_true, Bool.and_eq_true, decide_eq_true_eq,
    beq_iff_eq, or_assoc]

def StartsKey (c : Char) : Prop :=
  c = '"' ∨ c = '\x27' ∨ BareChar c

theorem StartsKey.ne {c d : Char} (h : StartsKey c) (hq : d ≠ '"' ∧ d ≠ '\x27')
    (hd : isBareKeyChar d = false) : c ≠ d := by
  rintro rfl
  rcases h with h | h | h
  · exact hq.1 h
  · exact hq.2 h
  · rw [← isBareKeyChar_iff, hd] at h
    cases h

theorem StartsKey.isSpace {c : Char} (h : StartsKey c) : isSpace c = false := by
  rw [Bool.eq_false_iff, Ne, isSpace_iff, not_or]
  exact ⟨h.ne (by decide) (by decide), h.ne (by decide) (by decide)⟩

theorem KeyPart.head (h : KeyPart cs t) : ∃ c r, cs = c :: r ∧ StartsKey c := by
  cases h with
  | bare hne h =>
    obtain ⟨c, r, rfl⟩ := List.exists_cons_of_ne_nil hne
    exact ⟨c, r, rfl, .inr (.inr (h c List.mem_cons_self))⟩
  | basic h => exact ⟨'"', _, rfl, .inl rfl⟩
  | literal h => exact ⟨'\x27', _, rfl, .inr (.inl rfl)⟩

theorem Key.head (h : Key ks parts) : ∃ a c r, ks = a ++ c :: r ∧ Space a ∧ StartsKey c := by
  cases h with
  | @last a cs t b ha h hb =>
    obtain ⟨c, r, rfl, hc⟩ := h.head
    exact ⟨a, c, r ++ b, rfl, ha, hc⟩
  | @dotted a cs t b ds parts ha h hb hd =>
    obtain ⟨c, r, rfl, hc⟩ := h.head
    exact ⟨a, c, r ++ (b ++ '.' :: ds), rfl, ha, hc⟩

theorem Key.skipSpace_append (h : Key ks parts) (rest : List Char) :
    ∃ c r, skipSpace (ks ++ rest) = c :: r ∧ StartsKey c := by
  obtain ⟨a, c, r, rfl, ha, hc⟩ := h.head
  refine ⟨c, r ++ rest, ?_, hc⟩
  rw [List.append_assoc, Toml.skipSpace_append ha, List.cons_append, skipSpace_cons hc.isSpace]

theorem Key.ne_nil (h : Key ks parts) : parts ≠ [] := by
  cases h <;> exact List.cons_ne_nil _ _

theorem readKeyPart?_append (h : KeyPart cs t) (hr : Stops isBareKeyChar rest) :
    readKeyPart? (cs ++ rest) = some (t, rest) := by
  cases h with
  | bare hne h =>
    have hrun : ∀ c ∈ cs, isBareKeyChar c = true := fun c hc => isBareKeyChar_iff.mpr (h c hc)
    have hhead (q : Char) (hq : isBareKeyChar q = false) (r : List Char) : cs ++ rest ≠ q :: r := by
      obtain ⟨c, cs, rfl⟩ := List.exists_cons_of_ne_nil hne
      intro he
      obtain rfl := (List.cons.inj he).1
      rw [hrun c List.mem_cons_self] at hq
      cases hq
    rw [readKeyPart?, takeWhile_run hrun hr, dropWhile_run hrun hr, if_neg]
    · rwa [List.isEmpty_iff]
    · exact hhead '"' (by decide)
    · exact hhead '\x27' (by decide)
  | basic h =>
    rw [List.cons_append, List.append_assoc, List.singleton_append]
    exact readBasic_of_basic h rest
  | literal h =>
    rw [List.cons_append, List.append_assoc, List.singleton_append]
    exact readLiteral_of_literal h rest

theorem stops_after_part {b : List Char} {c : Char} (hb : Space b) (hc : isBareKeyChar c = false)
    (rest : List Char) : Stops isBareKeyChar (b ++ c :: rest) := by
  cases b with
  | nil => exact stops_cons hc rest
  | cons d b =>
    refine stops_cons ?_ _
    rcases hb d List.mem_cons_self with rfl | rfl <;> decide

theorem readKeyPart?_spaced {a b : List Char} {c : Char} (ha : Space a) (h : KeyPart cs t)
    (hb : Space b) (hc : isBareKeyChar c = false) (rest : List Char) :
    readKeyPart? (skipSpace (a ++ (cs ++ (b ++ c :: rest)))) = some (t, b ++ c :: rest) := by
  have hspace : skipSpace (cs ++ (b ++ c :: rest)) = cs ++ (b ++ c :: rest) := by
    obtain ⟨d, r, rfl, hd⟩ := h.head
    exact skipSpace_cons hd.isSpace _
  rw [skipSpace_append ha, hspace, readKeyPart?_append h (stops_after_part hb hc rest)]

theorem readKey?_append (h : Key ks parts) {c : Char} (hc : c = '=' ∨ c = ']') {n : Nat}
    (hn : parts.length ≤ n) : readKey? n (ks ++ c :: rest) = some (parts, c :: rest) := by
  have hbare : isBareKeyChar c = false := by
    rcases hc with rfl | rfl <;> decide
  have hspace : isSpace c = false := by
    rcases hc with rfl | rfl <;> decide
  induction h generalizing n with
  | @last a cs t b ha h hb =>
    obtain ⟨n, rfl⟩ := Nat.exists_eq_add_of_le' hn
    rw [List.append_assoc, List.append_assoc, List.length_singleton, readKey?,
      readKeyPart?_spaced ha h hb hbare]
    simp only
    rw [skipSpace_append hb, skipSpace_cons hspace]
    rcases hc with rfl | rfl <;> rfl
  | @dotted a cs t b ds parts ha h hb hd ih =>
    obtain ⟨n, rfl⟩ := Nat.exists_eq_add_of_le' hn
    rw [List.append_assoc, List.append_assoc, List.append_assoc, List.cons_append,
      List.length_cons, ← Nat.add_assoc, readKey?, readKeyPart?_spaced ha h hb (by decide)]
    simp only
    rw [skipSpace_append hb, skipSpace_cons (by decide)]
    simp only
    rw [ih (Nat.le_add_left _ _)]
    rfl

theorem readKey?_skipSpace (n : Nat) (cs : List Char) :
    readKey? n (skipSpace cs) = readKey? n cs := by
  cases n with
  | zero => rfl
  | succ n => rw [readKey?, readKey?, skipSpace_idem]

end Key

end Predication.Toml
