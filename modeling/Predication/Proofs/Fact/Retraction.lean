import Predication.Fact.Base
import Mathlib.Data.List.Basic

namespace Predication

namespace Fact

def Matches (f pattern : Fact) : Prop :=
  (pattern.subject.isVariable = true ∨ pattern.subject = f.subject) ∧
  (pattern.predicate.isVariable = true ∨ pattern.predicate = f.predicate) ∧
  (pattern.object.isVariable = true ∨ pattern.object = f.object)

instance (f pattern : Fact) : Decidable (f.Matches pattern) :=
  inferInstanceAs (Decidable (_ ∧ _ ∧ _))

theorem fits_iff {f pattern : Fact} : f.fits pattern = true ↔ f.Matches pattern := by
  simp only [fits, Term.fits, Matches, Bool.and_eq_true, Bool.or_eq_true, beq_iff_eq, and_assoc]

end Fact

namespace FactBase

theorem hasKey_iff {s p : Term} {f : Fact} :
    hasKey s p f = true ↔ f.subject = s ∧ f.predicate = p := by
  simp only [hasKey, Bool.and_eq_true, beq_iff_eq]

theorem find_eq_filter (b : FactBase) (pattern : Fact) :
    b.find pattern = b.facts.filter fun f => f.Matches pattern := by
  refine List.filter_congr ?_
  intro f _
  rw [Bool.eq_iff_iff, decide_eq_true_eq]
  exact Fact.fits_iff

def taken (b : FactBase) (s p : Term) : List Fact :=
  b.facts.filter fun f => f ∉ (b.retract s p).1.facts

section

variable (b : FactBase) (s p : Term)

theorem mem_retract {f : Fact} :
    f ∈ (b.retract s p).1.facts ↔ f ∈ b.facts ∧ ¬ (f.subject = s ∧ f.predicate = p) := by
  have hf : f ∈ (b.retract s p).1.facts ↔ f ∈ b.facts ∧ hasKey s p f = false := by
    simp [retract]
  rw [hf, ← hasKey_iff, Bool.not_eq_true]

theorem taken_eq_filter : b.taken s p = b.facts.filter (hasKey s p) := by
  refine List.filter_congr ?_
  intro f hf
  have hm : f ∉ (b.retract s p).1.facts ↔ f.subject = s ∧ f.predicate = p := by
    simp [mem_retract, hf]
  rw [Bool.eq_iff_iff, decide_eq_true_eq, hm, hasKey_iff]

theorem mem_taken {f : Fact} :
    f ∈ b.taken s p ↔ f ∈ b.facts ∧ f.subject = s ∧ f.predicate = p := by
  rw [taken_eq_filter, List.mem_filter, hasKey_iff]

theorem length_taken : (b.taken s p).length = (b.retract s p).2 := by
  rw [taken_eq_filter, ← List.countP_eq_length_filter]
  rfl

theorem facts_retract :
    (b.retract s p).1.facts = b.facts.filter fun f => f ∉ b.taken s p := by
  refine List.filter_congr ?_
  intro f hf
  have hm : f ∉ b.taken s p ↔ ¬ hasKey s p f = true := by
    simp [mem_taken, hf, hasKey_iff]
  cases hk : hasKey s p f with
  | false => simp [hm, hk]
  | true => simp [hm, hk]

theorem find_retract (pattern : Fact) :
    (b.retract s p).1.find pattern = (b.find pattern).filter fun f => f ∉ b.taken s p := by
  rw [find, facts_retract, find, List.filter_filter, List.filter_filter]
  refine List.filter_congr ?_
  intro f _
  exact Bool.and_comm _ _

theorem taken_sublist_find (x : String) :
    List.Sublist (b.taken s p) (b.find ⟨s, p, .variable x⟩) := by
  have hp : ∀ f ∈ b.facts, hasKey s p f = true → f.fits ⟨s, p, .variable x⟩ = true := by
    intro f _ hk
    obtain ⟨hs, hp⟩ := hasKey_iff.mp hk
    exact Fact.fits_iff.mpr ⟨.inr hs.symm, .inr hp.symm, .inl rfl⟩
  have hf : b.taken s p = (b.find ⟨s, p, .variable x⟩).filter (hasKey s p) := by
    rw [taken_eq_filter, find, List.filter_filter]
    refine List.filter_congr ?_
    intro f hf
    have himp := hp f hf
    cases hk : hasKey s p f with
    | false => rfl
    | true => simp [himp hk]
  rw [hf]
  exact List.filter_sublist

theorem taken_eq_find (hs : s.isVariable = false) (hp : p.isVariable = false) (x : String) :
    b.taken s p = b.find ⟨s, p, .variable x⟩ := by
  rw [taken_eq_filter, find]
  refine List.filter_congr ?_
  intro f _
  have hx : (Term.variable x).isVariable = true := rfl
  have hm : f.Matches ⟨s, p, .variable x⟩ ↔ f.subject = s ∧ f.predicate = p := by
    simp only [Fact.Matches, hs, hp, hx, Bool.false_eq_true, false_or, true_or, and_true,
      eq_comm (a := s), eq_comm (a := p)]
  rw [Bool.eq_iff_iff, hasKey_iff, Fact.fits_iff, hm]

theorem find_retract_self (hs : s.isVariable = false) (hp : p.isVariable = false) (x : String) :
    (b.retract s p).1.find ⟨s, p, .variable x⟩ = [] := by
  rw [find_retract, taken_eq_find b s p hs hp x]
  simp

end

theorem find_extend (b : FactBase) (fs : List Fact) (pattern : Fact) :
    (b.extend fs).find pattern = b.find pattern ++ fs.filter fun f => f.fits pattern :=
  List.filter_append _ _

theorem retract_extend (b : FactBase) (fs : List Fact) (s p : Term) :
    (b.extend fs).retract s p =
      ((b.retract s p).1.extend (fs.filter fun f => !hasKey s p f),
        (b.retract s p).2 + fs.countP (hasKey s p)) := by
  simp [retract, extend]

end FactBase

end Predication
