import Predication.Embedding
import Predication.Proofs.Text.Token

namespace Predication

def Embedding.FirstBad (text token : String) : Prop :=
  ∃ good rest, Text.tokens text.toList = good ++ token.toList :: rest ∧
    (∀ t ∈ good, (Binary32.read? t).isSome) ∧ Binary32.read? token.toList = none

namespace Embedding

theorem readTokens_of_read? {t : List Char} {x : Binary32} (h : Binary32.read? t = some x)
    (ts : List (List Char)) : readTokens (t :: ts) = (readTokens ts).map (x :: ·) := by
  rw [readTokens, h]
  cases readTokens ts with
  | error e => rfl
  | ok xs => rfl

theorem readTokens_eq_error {ts : List (List Char)} {e : EmbeddingError}
    (h : readTokens ts = .error e) :
    ∃ good rest, ts = good ++ e.token.toList :: rest ∧
      (∀ t ∈ good, (Binary32.read? t).isSome) ∧ Binary32.read? e.token.toList = none := by
  induction ts with
  | nil => cases h
  | cons t ts ih =>
    cases hr : Binary32.read? t with
    | none =>
      rw [readTokens, hr] at h
      cases h
      refine ⟨[], ts, ?_, ?_, ?_⟩
      · simp
      · simp
      · simpa using hr
    | some x =>
      rw [readTokens_of_read? hr] at h
      cases hts : readTokens ts with
      | ok xs =>
        rw [hts] at h
        cases h
      | error e' =>
        rw [hts] at h
        cases h
        obtain ⟨good, rest, rfl, hgood, hbad⟩ := ih hts
        refine ⟨t :: good, rest, rfl, ?_, hbad⟩
        intro u hu
        rcases List.mem_cons.mp hu with rfl | hu
        · rw [hr]
          rfl
        · exact hgood u hu

theorem readTokens_of_bad {good rest : List (List Char)} {bad : List Char}
    (hgood : ∀ t ∈ good, (Binary32.read? t).isSome) (hbad : Binary32.read? bad = none) :
    readTokens (good ++ bad :: rest) = .error ⟨String.ofList bad⟩ := by
  induction good with
  | nil => rw [List.nil_append, readTokens, hbad]
  | cons t good ih =>
    obtain ⟨x, hx⟩ := Option.isSome_iff_exists.mp (hgood t List.mem_cons_self)
    have hrest := ih fun u hu => hgood u (List.mem_cons_of_mem t hu)
    rw [List.cons_append, readTokens_of_read? hx, hrest]
    rfl

theorem parse_eq_error_iff (text token : String) :
    parse text = .error ⟨token⟩ ↔ FirstBad text token := by
  constructor
  · intro h
    exact readTokens_eq_error h
  · rintro ⟨good, rest, ht, hgood, hbad⟩
    rw [parse, ht, readTokens_of_bad hgood hbad, String.ofList_toList]

theorem parse_of_spaced {ts : List (List Char)} {s : String} (h : Text.Spaced ts s.toList) :
    parse s = readTokens ts := by
  rw [parse, Text.tokens_of_spaced h]

theorem parse_append_gap {gap : String} (hne : gap ≠ "") (hgap : Text.Blanks gap.toList)
    (a b : String) :
    parse (a ++ gap ++ b) = (do
      let xs ← parse a
      let ys ← parse b
      return xs ++ ys) := by
  have hne' : gap.toList ≠ [] := fun h => hne (String.toList_eq_nil_iff.mp h)
  have htokens : Text.tokens (a ++ gap ++ b).toList =
      Text.tokens a.toList ++ Text.tokens b.toList := by
    rw [String.toList_append, String.toList_append, List.append_assoc]
    exact Text.tokens_append_gap hne' hgap a.toList b.toList
  rw [parse, htokens, readTokens_append]
  simp only [parse]
  cases readTokens (Text.tokens a.toList) with
  | error e => rfl
  | ok xs =>
    cases readTokens (Text.tokens b.toList) with
    | error e => rfl
    | ok ys => rfl

theorem parse_eq_error_iff_spaced (s : String) (e : EmbeddingError) :
    parse s = .error e ↔ ∃ good rest, Text.Spaced (good ++ e.token.toList :: rest) s.toList ∧
      (∀ t ∈ good, (Binary32.read? t).isSome) ∧ Binary32.read? e.token.toList = none := by
  simp only [← Text.tokens_eq_iff]
  exact parse_eq_error_iff s e.token

theorem parse_homomorphism :
    (∀ a gap b : String, gap ≠ "" → Text.Blanks gap.toList →
      (∀ e, parse a = .error e → parse (a ++ gap ++ b) = .error e) ∧
      (∀ xs e, parse a = .ok xs → parse b = .error e → parse (a ++ gap ++ b) = .error e) ∧
      (∀ xs ys, parse a = .ok xs → parse b = .ok ys →
        parse (a ++ gap ++ b) = .ok (xs ++ ys))) ∧
    (∀ ts s t, Text.Spaced ts s.toList → Text.Spaced ts t.toList → parse s = parse t) ∧
    (∀ s : String, Text.Blanks s.toList → parse s = .ok []) ∧
    (∀ s e, parse s = .error e ↔
      ∃ good rest, Text.Spaced (good ++ e.token.toList :: rest) s.toList ∧
        (∀ t ∈ good, (Binary32.read? t).isSome) ∧ Binary32.read? e.token.toList = none) := by
  refine ⟨?_, ?_, ?_, parse_eq_error_iff_spaced⟩
  · intro a gap b hne hgap
    rw [parse_append_gap hne hgap]
    refine ⟨?_, ?_, ?_⟩
    · intro e ha
      rw [ha]
      rfl
    · intro xs e ha hb
      rw [ha, hb]
      rfl
    · intro xs ys ha hb
      rw [ha, hb]
      rfl
  · intro ts s t hs ht
    rw [parse_of_spaced hs, parse_of_spaced ht]
  · intro s hs
    exact parse_of_spaced (.blanks hs)

example : parse "1\u3000-inf\t x\u2028 2 y" = .error ⟨"x"⟩ := by decide +kernel

end Embedding

end Predication
