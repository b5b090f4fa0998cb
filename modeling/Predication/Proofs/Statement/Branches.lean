import Predication.Proofs.Statement.Passes
import Mathlib.Data.List.Forall2

namespace Predication.Statement

structure VerbBranch (s : Statement) (item : String) (t : Statement) : Prop where
  scope : t.scope = s.scope
  subject : t.subject = s.subject
  modalVerb : t.modalVerb = s.modalVerb
  condition : t.condition = s.condition
  payload : t.payload = .scalar item
  mainVerb : t.mainVerb = .branch item

structure AttributeBranch (s : Statement) (item : String) (t : Statement) : Prop where
  scope : t.scope = s.scope
  subject : t.subject = s.subject
  modalVerb : t.modalVerb = s.modalVerb
  mainVerb : t.mainVerb = s.mainVerb
  payload : t.payload = s.payload
  condition : t.condition = item

structure SameButMainVerb (s t : Statement) : Prop where
  scope : s.scope = t.scope
  subject : s.subject = t.subject
  modalVerb : s.modalVerb = t.modalVerb
  condition : s.condition = t.condition
  payload : s.payload = t.payload

structure SameButCondition (s t : Statement) : Prop where
  scope : s.scope = t.scope
  subject : s.subject = t.subject
  modalVerb : s.modalVerb = t.modalVerb
  mainVerb : s.mainVerb = t.mainVerb
  payload : s.payload = t.payload

namespace SameButCondition

variable {s t u : Statement}

theorem symm (h : SameButCondition s t) : SameButCondition t s where
  scope := h.scope.symm
  subject := h.subject.symm
  modalVerb := h.modalVerb.symm
  mainVerb := h.mainVerb.symm
  payload := h.payload.symm

theorem trans (h : SameButCondition s t) (h' : SameButCondition t u) : SameButCondition s u where
  scope := h.scope.trans h'.scope
  subject := h.subject.trans h'.subject
  modalVerb := h.modalVerb.trans h'.modalVerb
  mainVerb := h.mainVerb.trans h'.mainVerb
  payload := h.payload.trans h'.payload

end SameButCondition

theorem exists_items {s : Statement} (h : s.isComposite = true) :
    ∃ items, s.payload = .list items := by
  cases hp : s.payload with
  | scalar v => simp [isComposite, hp, Payload.isList] at h
  | list items => exact ⟨items, rfl⟩

theorem VerbBranch.invoke {s t : Statement} {item : String} (h : VerbBranch s item t) (host : Host)
    (e : Entity) : t.mainVerb.invoke host e = .ok (.text (e.publicName ++ " is " ++ item)) := by
  rw [h.mainVerb]
  rfl

section List

variable {s : Statement} {items : List String} (h : s.payload = .list items)
include h

theorem verbBranches : List.Forall₂ (VerbBranch s) items s.expandVerbs := by
  rw [expandVerbs, h, List.forall₂_map_right_iff, List.forall₂_same]
  intro item _
  exact ⟨rfl, rfl, rfl, rfl, rfl, rfl⟩

theorem attributeBranches : List.Forall₂ (AttributeBranch s) items s.expandAttributes := by
  rw [expandAttributes, h, List.forall₂_map_right_iff, List.forall₂_same]
  intro item _
  exact ⟨rfl, rfl, rfl, rfl, h.symm, rfl⟩

theorem SameButMainVerb.expandVerbs_eq {t : Statement} (hst : SameButMainVerb s t) :
    s.expandVerbs = t.expandVerbs := by
  have ht : t.payload = .list items := hst.payload ▸ h
  simp only [expandVerbs, h, ht, hst.scope, hst.subject, hst.modalVerb, hst.condition]

theorem SameButCondition.expandAttributes_eq {t : Statement} (hst : SameButCondition s t) :
    s.expandAttributes = t.expandAttributes := by
  have ht : t.payload = .list items := hst.payload ▸ h
  simp only [expandAttributes, h, ht, hst.scope, hst.subject, hst.modalVerb, hst.mainVerb]

end List

section Shared

variable {s t : Statement} {items others : List String} {branches : List Statement}

theorem items_eq_of_verbBranches (hs : List.Forall₂ (VerbBranch s) items branches)
    (ht : List.Forall₂ (VerbBranch t) others branches) : items = others := by
  induction hs generalizing others with
  | nil =>
    cases ht
    rfl
  | cons hb _ ih =>
    cases ht with
    | cons hc hrest =>
      have hitem := Payload.scalar.inj (hb.payload.symm.trans hc.payload)
      rw [hitem, ih hrest]

theorem sameButMainVerb_of_verbBranches (hs : s.payload = .list items)
    (ht : t.payload = .list others) (hbs : List.Forall₂ (VerbBranch s) items branches)
    (hbt : List.Forall₂ (VerbBranch t) others branches) (hne : branches ≠ []) :
    SameButMainVerb s t := by
  have hitems : items = others := items_eq_of_verbBranches hbs hbt
  cases hbs with
  | nil => exact absurd rfl hne
  | cons hb _ =>
    cases hbt with
    | cons hc _ =>
      exact {
        scope := hb.scope.symm.trans hc.scope
        subject := hb.subject.symm.trans hc.subject
        modalVerb := hb.modalVerb.symm.trans hc.modalVerb
        condition := hb.condition.symm.trans hc.condition
        payload := by rw [hs, ht, hitems] }

theorem sameButCondition_of_mem (h : t ∈ s.expandAttributes) : SameButCondition s t := by
  cases hp : s.payload with
  | scalar v =>
    rw [expandAttributes_of_scalar hp, List.mem_singleton] at h
    rw [h]
    exact ⟨rfl, rfl, rfl, rfl, rfl⟩
  | list items =>
    rw [expandAttributes, hp, List.mem_map] at h
    obtain ⟨a, -, rfl⟩ := h
    exact ⟨rfl, rfl, rfl, rfl, hp⟩

end Shared

structure Fans (s : Statement) (items : List String) : Prop where
  verbs_length : s.expandVerbs.length = items.length
  verbs : List.Forall₂ (VerbBranch s) items s.expandVerbs
  verbs_invoke : ∀ host e, s.expandVerbs.map (fun t => t.mainVerb.invoke host e) =
    items.map fun item => .ok (.text (e.publicName ++ " is " ++ item))
  attributes_length : s.expandAttributes.length = items.length
  attributes : List.Forall₂ (AttributeBranch s) items s.expandAttributes
  attributes_invoke : ∀ host e, ∀ t ∈ s.expandAttributes,
    t.mainVerb.invoke host e = s.mainVerb.invoke host e

theorem fans_of_list {s : Statement} {items : List String} (h : s.payload = .list items) :
    Fans s items where
  verbs_length := length_expandVerbs h
  verbs := verbBranches h
  verbs_invoke host e := by
    rw [← List.forall₂_eq_eq_eq, List.forall₂_map_left_iff, List.forall₂_map_right_iff]
    exact ((verbBranches h).imp fun item t hb => hb.invoke host e).flip
  attributes_length := length_expandAttributes h
  attributes := attributeBranches h
  attributes_invoke host e t ht := by
    rw [(sameButCondition_of_mem ht).mainVerb]

theorem expansion_branches (s : Statement) :
    (∀ items, s.payload = .list items → Fans s items) ∧
    (∀ t, s.isComposite → t.isComposite → s.expandVerbs ≠ [] →
      (s.expandVerbs = t.expandVerbs ↔ SameButMainVerb s t)) ∧
    (∀ t, s.expandAttributes ≠ [] → s.expandAttributes = t.expandAttributes →
      SameButCondition s t) ∧
    (∀ t, s.isComposite → SameButCondition s t → s.expandAttributes = t.expandAttributes) := by
  refine ⟨fun items => fans_of_list, ?_, ?_, ?_⟩
  · intro t hs ht hne
    obtain ⟨items, hs⟩ := exists_items hs
    obtain ⟨others, ht⟩ := exists_items ht
    constructor
    · intro he
      have hbt : List.Forall₂ (VerbBranch t) others s.expandVerbs := he ▸ verbBranches ht
      exact sameButMainVerb_of_verbBranches hs ht (verbBranches hs) hbt hne
    · exact SameButMainVerb.expandVerbs_eq hs
  · intro t hne he
    obtain ⟨b, hb⟩ := List.exists_mem_of_ne_nil _ hne
    have hbt : b ∈ t.expandAttributes := he ▸ hb
    exact (sameButCondition_of_mem hb).trans (sameButCondition_of_mem hbt).symm
  · intro t hs
    obtain ⟨items, hs⟩ := exists_items hs
    exact SameButCondition.expandAttributes_eq hs

theorem expansion_branches_repeated :
    let s : Statement := {
      scope := "fact", subject := ⟨7⟩, modalVerb := "can", mainVerb := .custom ⟨"greet", 3⟩
      condition := "today", payload := .list ["run", "", "run"] }
    let t : Statement := { s with mainVerb := .unbound }
    let u : Statement := { s with condition := "never" }
    Fans s ["run", "", "run"] ∧ (s.expandVerbs = t.expandVerbs ↔ SameButMainVerb s t) ∧
      SameButCondition s u := by
  intro s t u
  obtain ⟨hfans, hverbs, hattributes, -⟩ := expansion_branches s
  exact ⟨hfans _ rfl, hverbs t rfl rfl (by decide), hattributes u (by decide) rfl⟩

end Predication.Statement
