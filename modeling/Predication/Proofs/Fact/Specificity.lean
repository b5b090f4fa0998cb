import Predication.Proofs.Fact.Retraction

namespace Predication

namespace Term

variable {t u v : Term}

def Alike (t u : Term) : Prop :=
  t = u ∨ t.isVariable = true ∧ u.isVariable = true

def renamed (name : String) : Term → Term
  | .variable _ => .variable name
  | t => t

theorem fits_iff : t.fits u = true ↔ u.isVariable = true ∨ u = t := by
  rw [fits, Bool.or_eq_true, beq_iff_eq]

theorem fits_trans (htu : t.fits u = true) (huv : u.fits v = true) : t.fits v = true := by
  rw [fits_iff] at htu huv ⊢
  rcases huv with hv | rfl
  · exact .inl hv
  · exact htu

theorem fits_both_iff : t.fits u = true ∧ u.fits t = true ↔ t.Alike u := by
  rw [fits_iff, fits_iff]
  constructor
  · rintro ⟨hu | rfl, ht | htu⟩
    · exact .inr ⟨ht, hu⟩
    · exact .inl htu
    · exact .inl rfl
    · exact .inl rfl
  · rintro (rfl | ⟨ht, hu⟩)
    · exact ⟨.inr rfl, .inr rfl⟩
    · exact ⟨.inl hu, .inl ht⟩

theorem fits_renamed (name : String) : t.fits (u.renamed name) = t.fits u := by
  cases u with
  | literal l => rfl
  | symbol s => rfl
  | action d => rfl
  | reference d => rfl
  | «variable» x => rfl

end Term

namespace Fact

variable {f p q : Fact}

structure Alike (f p : Fact) : Prop where
  subject : f.subject.Alike p.subject
  predicate : f.predicate.Alike p.predicate
  object : f.object.Alike p.object

/-- A pattern whose variables have other names, which need not differ from place to place. -/
def renamed (subject predicate object : String) (p : Fact) : Fact where
  subject := p.subject.renamed subject
  predicate := p.predicate.renamed predicate
  object := p.object.renamed object

theorem fits_iff_places :
    f.fits p = true ↔
      f.subject.fits p.subject = true ∧ f.predicate.fits p.predicate = true ∧
        f.object.fits p.object = true := by
  rw [fits, Bool.and_eq_true, Bool.and_eq_true, and_assoc]

theorem fits_trans (hfp : f.fits p = true) (hpq : p.fits q = true) : f.fits q = true := by
  rw [fits_iff_places] at hfp hpq ⊢
  exact ⟨Term.fits_trans hfp.1 hpq.1, Term.fits_trans hfp.2.1 hpq.2.1,
    Term.fits_trans hfp.2.2 hpq.2.2⟩

theorem fits_both_iff : f.fits p = true ∧ p.fits f = true ↔ f.Alike p := by
  rw [fits_iff_places, fits_iff_places]
  constructor
  · rintro ⟨⟨hs, hr, ho⟩, hs', hr', ho'⟩
    constructor
    case subject => exact Term.fits_both_iff.mp ⟨hs, hs'⟩
    case predicate => exact Term.fits_both_iff.mp ⟨hr, hr'⟩
    case object => exact Term.fits_both_iff.mp ⟨ho, ho'⟩
  · rintro ⟨hs, hr, ho⟩
    obtain ⟨hs, hs'⟩ := Term.fits_both_iff.mpr hs
    obtain ⟨hr, hr'⟩ := Term.fits_both_iff.mpr hr
    obtain ⟨ho, ho'⟩ := Term.fits_both_iff.mpr ho
    exact ⟨⟨hs, hr, ho⟩, hs', hr', ho'⟩

theorem fits_renamed (s r o : String) : f.fits (p.renamed s r o) = f.fits p := by
  simp only [fits, renamed, Term.fits_renamed]

end Fact

namespace FactBase

variable {p q : Fact}

theorem find_sublist_find (h : p.fits q = true) (b : FactBase) :
    List.Sublist (b.find p) (b.find q) :=
  List.monotone_filter_right b.facts fun _ hf => Fact.fits_trans hf h

/-- The pattern itself, taken as a fact, is what another pattern would miss. -/
theorem fits_of_find_sublist (h : ∀ b : FactBase, List.Sublist (b.find p) (b.find q)) :
    p.fits q = true := by
  have hp : p ∈ (empty.add p).find p :=
    List.mem_filter.mpr ⟨List.mem_singleton_self p, Fact.fits_self p⟩
  exact (List.mem_filter.mp ((h (empty.add p)).subset hp)).2

theorem find_specificity (f p q : Fact) :
    f.fits f = true ∧
    (f.fits p = true → p.fits q = true → f.fits q = true) ∧
    (f.fits p = true ∧ p.fits f = true ↔ f.Alike p) ∧
    (∀ s r o, f.fits (p.renamed s r o) = f.fits p) ∧
    (p.fits q = true ↔ ∀ b : FactBase, List.Sublist (b.find p) (b.find q)) ∧
    (p.fits q = true ∧ q.fits p = true ↔ ∀ b : FactBase, b.find p = b.find q) := by
  have hsub (p q : Fact) :
      p.fits q = true ↔ ∀ b : FactBase, List.Sublist (b.find p) (b.find q) :=
    ⟨find_sublist_find, fits_of_find_sublist⟩
  refine ⟨Fact.fits_self f, Fact.fits_trans, Fact.fits_both_iff, Fact.fits_renamed, hsub p q, ?_⟩
  constructor
  · rintro ⟨hpq, hqp⟩ b
    exact (find_sublist_find hpq b).antisymm (find_sublist_find hqp b)
  · intro h
    refine ⟨(hsub p q).mpr fun b => ?_, (hsub q p).mpr fun b => ?_⟩
    · rw [h b]
    · rw [h b]

theorem find_specificity_who_is_what :
    let fact : Fact := ⟨.symbol "david", .symbol "is", .variable "person"⟩
    let who : Fact := ⟨.variable "who", .symbol "is", .variable "what"⟩
    let any : Fact := ⟨.variable "x", .variable "x", .variable "y"⟩
    fact.fits who = true ∧ who.fits any = true ∧ fact.fits any = true ∧
      (∀ b : FactBase, List.Sublist (b.find who) (b.find any)) ∧
      ∀ b : FactBase, b.find who = b.find (who.renamed "a" "b" "a") := by
  intro fact who any
  have hfact : fact.fits who = true := by decide
  have hwho : who.fits any = true := by decide
  obtain ⟨-, htrans, -, -, hfind, -⟩ := find_specificity fact who any
  obtain ⟨-, -, -, -, -, hsame⟩ := find_specificity fact who (who.renamed "a" "b" "a")
  exact ⟨hfact, hwho, htrans hfact hwho, hfind.mp hwho, hsame.mp (by decide)⟩

end FactBase

end Predication
