import Predication.Proofs.Fact.Retraction
import Predication.Statement.Expansion
import Predication.Statement.Lowering
import Mathlib.Data.List.Basic

namespace Predication

namespace Statement

variable (r : Registry) (s : Statement) (items : List String)

def subjectTerm : Term :=
  .symbol ((r.get? s.subject).elim ("#" ++ Text.natText s.subject.number.toNat)
    Entity.displayName)

def objectTerm (condition : String) : Term :=
  if condition = "" then .literal .absent else .symbol condition

def verbFact (v : String) : Fact :=
  ⟨subjectTerm r s, .action (s.modalVerb ++ ":" ++ v), objectTerm s.condition⟩

def listTerm : Term :=
  .action (s.modalVerb ++ ":" ++ ("\x7b" ++ ", ".intercalate items ++ "\x7d"))

def attributeFact (a : String) : Fact :=
  ⟨subjectTerm r s, listTerm s items, objectTerm a⟩

theorem lower_eq :
    s.lower r = ⟨subjectTerm r s, .action (s.modalVerb ++ ":" ++ s.payload.render),
      objectTerm s.condition⟩ := by
  have hs : subjectTerm r s = .symbol (s.subjectName r) := by
    rw [subjectTerm, subjectName]
    cases r.get? s.subject with
    | none => rfl
    | some e => rfl
  have ho : objectTerm s.condition =
      if s.condition.isEmpty then .literal .absent else .symbol s.condition := by
    simp only [objectTerm, String.isEmpty_iff]
  rw [hs, ho]
  rfl

section List

variable {s items} (h : s.payload = .list items)
include h

theorem lower_expandVerbs : s.expandVerbs.map (lower r) = items.map (verbFact r s) := by
  simp only [expandVerbs, h, List.map_map]
  refine List.map_congr_left ?_
  intro v _
  exact lower_eq r { s with mainVerb := .branch v, payload := .scalar v }

theorem lower_expandAttributes :
    s.expandAttributes.map (lower r) = items.map (attributeFact r s items) := by
  simp only [expandAttributes, h, List.map_map]
  refine List.map_congr_left ?_
  intro a _
  exact lower_eq r { s with condition := a, payload := .list items }

end List

theorem filter_verbFacts (x : String) :
    ((items.map (verbFact r s)).filter fun f =>
      f.fits ⟨subjectTerm r s, .variable x, objectTerm s.condition⟩) =
    items.map (verbFact r s) := by
  rw [List.filter_eq_self]
  intro f hf
  obtain ⟨v, -, rfl⟩ := List.mem_map.mp hf
  exact Fact.fits_iff.mpr ⟨.inr rfl, .inl rfl, .inr rfl⟩

theorem hasKey_attributeFacts :
    ∀ f ∈ items.map (attributeFact r s items),
      FactBase.hasKey (subjectTerm r s) (listTerm s items) f = true := by
  intro f hf
  obtain ⟨a, -, rfl⟩ := List.mem_map.mp hf
  exact FactBase.hasKey_iff.mpr ⟨rfl, rfl⟩

theorem lowered_expansions (r : Registry) (kb : FactBase) (s : Statement) (items : List String)
    (h : s.payload = .list items) :
    (kb.extend (s.expandVerbs.map (lower r))).facts = kb.facts ++ items.map (verbFact r s) ∧
    (∀ x, (kb.extend (s.expandVerbs.map (lower r))).find
        ⟨subjectTerm r s, .variable x, objectTerm s.condition⟩ =
      kb.find ⟨subjectTerm r s, .variable x, objectTerm s.condition⟩ ++
        items.map (verbFact r s)) ∧
    (kb.extend (s.expandAttributes.map (lower r))).facts =
      kb.facts ++ items.map (attributeFact r s items) ∧
    ((kb.extend (s.expandAttributes.map (lower r))).retract
        (subjectTerm r s) (listTerm s items)).1.facts =
      kb.facts.filter (fun f =>
        ¬ (f.subject = subjectTerm r s ∧ f.predicate = listTerm s items)) ∧
    ((kb.extend (s.expandAttributes.map (lower r))).retract
        (subjectTerm r s) (listTerm s items)).2 =
      kb.facts.countP (fun f =>
        f.subject = subjectTerm r s ∧ f.predicate = listTerm s items) + items.length := by
  have hv : s.expandVerbs.map (lower r) = items.map (verbFact r s) := lower_expandVerbs r h
  have ha : s.expandAttributes.map (lower r) = items.map (attributeFact r s items) :=
    lower_expandAttributes r h
  have hkey := hasKey_attributeFacts r s items
  have hdec (f : Fact) : FactBase.hasKey (subjectTerm r s) (listTerm s items) f =
      decide (f.subject = subjectTerm r s ∧ f.predicate = listTerm s items) := by
    rw [Bool.eq_iff_iff, FactBase.hasKey_iff, decide_eq_true_eq]
  rw [hv, ha, FactBase.retract_extend]
  refine ⟨rfl, ?_, rfl, ?_, ?_⟩
  · intro x
    rw [FactBase.find_extend, filter_verbFacts]
  · have hnil : (items.map (attributeFact r s items)).filter
        (fun f => !FactBase.hasKey (subjectTerm r s) (listTerm s items) f) = [] := by
      rw [List.filter_eq_nil_iff]
      intro f hf
      simp [hkey f hf]
    rw [hnil, FactBase.facts_extend, List.append_nil]
    simp only [FactBase.retract, hdec, decide_not]
  · have hall : (items.map (attributeFact r s items)).countP
        (FactBase.hasKey (subjectTerm r s) (listTerm s items)) = items.length := by
      rw [List.countP_eq_length.mpr hkey, List.length_map]
    rw [hall]
    simp only [FactBase.retract, funext hdec]

theorem lowered_expansions_unknown :
    let s : Statement :=
      { scope := "def", subject := ⟨9⟩, modalVerb := "do", condition := "",
        payload := .list ["fast", ""] }
    let before : Fact := ⟨.symbol "#9", .action "do:\x7bfast, \x7d", .symbol "old"⟩
    let kb : FactBase := ⟨[before]⟩
    (kb.extend (s.expandAttributes.map (lower .empty))).facts =
      [before, ⟨before.subject, before.predicate, .symbol "fast"⟩,
        ⟨before.subject, before.predicate, .literal .absent⟩] ∧
    ((kb.extend (s.expandAttributes.map (lower .empty))).retract
      before.subject before.predicate).2 = 3 := by
  intro s before kb
  obtain ⟨-, -, hfacts, -, hcount⟩ := lowered_expansions .empty kb s ["fast", ""] rfl
  have hs : subjectTerm .empty s = before.subject := by decide
  have hp : listTerm s ["fast", ""] = before.predicate := by decide
  rw [hs, hp] at hcount
  exact ⟨hfacts.trans (by decide), hcount.trans (by decide)⟩

end Statement

end Predication
