import Predication.Proofs.Fact.Retraction
import Mathlib.Data.List.Basic

namespace Predication

inductive FactStep where
  | add (fact : Fact)
  | extend (facts : List Fact)
  | retract (subject predicate : Term)
  deriving DecidableEq

namespace FactStep

def added : FactStep → List Fact
  | .add f => [f]
  | .extend fs => fs
  | .retract _ _ => []

def Retracts (f : Fact) : FactStep → Prop
  | .add _ => False
  | .extend _ => False
  | .retract s p => f.subject = s ∧ f.predicate = p

instance (f : Fact) : DecidablePred (Retracts f)
  | .add _ => inferInstanceAs (Decidable False)
  | .extend _ => inferInstanceAs (Decidable False)
  | .retract s p => inferInstanceAs (Decidable (f.subject = s ∧ f.predicate = p))

/-- Every fact that is added, in order, with the steps that come after the one that adds it. -/
def additions : List FactStep → List (Fact × List FactStep)
  | [] => []
  | s :: later => s.added.map (fun f => (f, later)) ++ additions later

def standing (steps : List FactStep) : List Fact :=
  ((additions steps).filter fun a => ∀ s ∈ a.2, ¬ Retracts a.1 s).map Prod.fst

theorem standing_cons (s : FactStep) (later : List FactStep) :
    standing (s :: later) =
      (s.added.filter fun f => ∀ t ∈ later, ¬ Retracts f t) ++ standing later := by
  have hs : (s.added.map fun f => (f, later)).filter (fun a => ∀ t ∈ a.2, ¬ Retracts a.1 t) =
      (s.added.filter fun f => ∀ t ∈ later, ¬ Retracts f t).map fun f => (f, later) :=
    List.filter_map
  rw [standing, additions, List.filter_append, List.map_append, hs, List.map_map]
  exact congrArg (· ++ standing later) (List.map_id _)

end FactStep

namespace FactBase

open FactStep (Retracts standing)

def step (b : FactBase) : FactStep → FactBase
  | .add f => b.add f
  | .extend fs => b.extend fs
  | .retract s p => (b.retract s p).1

def run (steps : List FactStep) : FactBase :=
  steps.foldl step empty

theorem facts_step (b : FactBase) (s : FactStep) :
    (b.step s).facts = (b.facts.filter fun f => ¬ Retracts f s) ++ s.added := by
  cases s with
  | add f => simp [step, FactStep.added, Retracts]
  | extend fs => simp [step, FactStep.added, Retracts]
  | retract s p =>
    rw [step, FactStep.added, List.append_nil, facts_retract]
    refine List.filter_congr ?_
    intro f hf
    have hm : f ∈ b.taken s p ↔ Retracts f (.retract s p) := by
      simp [mem_taken, hf, Retracts]
    simp [hm]

theorem facts_foldl (b : FactBase) (steps : List FactStep) :
    (steps.foldl step b).facts =
      (b.facts.filter fun f => ∀ s ∈ steps, ¬ Retracts f s) ++ standing steps := by
  induction steps generalizing b with
  | nil => simp [standing, FactStep.additions]
  | cons s later ih =>
    have hsplit (f : Fact) : (∀ t ∈ s :: later, ¬ Retracts f t) ↔
        (∀ t ∈ later, ¬ Retracts f t) ∧ ¬ Retracts f s := by
      rw [List.forall_mem_cons, and_comm]
    rw [List.foldl_cons, ih, facts_step, List.filter_append, List.filter_filter, List.append_assoc,
      ← FactStep.standing_cons]
    simp only [hsplit, Bool.decide_and]

theorem facts_run (steps : List FactStep) : (run steps).facts = standing steps := by
  rw [run, facts_foldl]
  rfl

theorem run_history (steps : List FactStep) :
    (run steps).facts = standing steps ∧
    (∀ pattern, (run steps).find pattern = (standing steps).filter fun f => f.Matches pattern) ∧
    ∀ s p,
      ((run steps).retract s p).2 = ((run steps).taken s p).length ∧
      ((run steps).retract s p).1.facts =
        (standing steps).filter (fun f => f ∉ (run steps).taken s p) ∧
      (∀ f ∈ (run steps).taken s p, f.subject = s ∧ f.predicate = p) ∧
      (∀ x, List.Sublist ((run steps).taken s p) ((run steps).find ⟨s, p, .variable x⟩)) ∧
      (∀ pattern, ((run steps).retract s p).1.find pattern =
        ((run steps).find pattern).filter fun f => f ∉ (run steps).taken s p) ∧
      (s.isVariable = false → p.isVariable = false → ∀ x,
        (run steps).taken s p = (run steps).find ⟨s, p, .variable x⟩ ∧
        ((run steps).retract s p).1.find ⟨s, p, .variable x⟩ = []) := by
  have hf : (run steps).facts = standing steps := facts_run steps
  refine ⟨hf, ?_, ?_⟩
  · intro pattern
    rw [find_eq_filter, hf]
  · intro s p
    refine ⟨(length_taken _ s p).symm, ?_, ?_, taken_sublist_find _ s p, find_retract _ s p, ?_⟩
    · rw [facts_retract, hf]
    · intro f hm
      exact ((mem_taken _ s p).mp hm).2
    · intro hs hp x
      exact ⟨taken_eq_find _ s p hs hp x, find_retract_self _ s p hs hp x⟩

theorem run_history_redefined :
    let david : Term := .symbol "david"
    let age : Term := .symbol "age"
    let new : Fact := ⟨david, age, .literal (.number 41)⟩
    let steps : List FactStep := [.add ⟨david, age, .literal (.number 40)⟩, .retract david age,
      .extend [new, ⟨.variable "who", age, .literal .absent⟩, new]]
    (run steps).find ⟨david, age, .variable "n"⟩ = [new, new] ∧
    (run steps).taken david age = [new, new] ∧
    ((run steps).retract david age).1.find ⟨david, age, .variable "n"⟩ = [] := by
  intro david age new steps
  obtain ⟨-, -, h⟩ := run_history steps
  obtain ⟨ht, hr⟩ := (h david age).2.2.2.2.2 rfl rfl "n"
  have hf : (run steps).find ⟨david, age, .variable "n"⟩ = [new, new] := by decide
  exact ⟨hf, ht.trans hf, hr⟩

end FactBase

end Predication
