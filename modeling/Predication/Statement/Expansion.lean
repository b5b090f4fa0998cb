import Predication.Statement

namespace Predication

inductive ExpansionAxis where
  | verbs
  | attributes
  deriving DecidableEq

namespace Statement

def expandVerbs (s : Statement) : List Statement :=
  match s.payload with
  | .scalar _ => [s]
  | .list items => items.map fun v => { s with mainVerb := .branch v, payload := .scalar v }

def expandAttributes (s : Statement) : List Statement :=
  match s.payload with
  | .scalar _ => [s]
  | .list items => items.map fun a => { s with condition := a }

def expand : ExpansionAxis → Statement → List Statement
  | .verbs => expandVerbs
  | .attributes => expandAttributes

def expandAll (axis : ExpansionAxis) (ss : List Statement) : List Statement :=
  ss.flatMap (expand axis)

theorem expandVerbs_of_scalar {s : Statement} {v : String} (h : s.payload = .scalar v) :
    s.expandVerbs = [s] := by
  simp [expandVerbs, h]

theorem expandAttributes_of_scalar {s : Statement} {v : String} (h : s.payload = .scalar v) :
    s.expandAttributes = [s] := by
  simp [expandAttributes, h]

theorem isComposite_of_mem_expandVerbs {s t : Statement} (h : t ∈ s.expandVerbs) :
    t.isComposite = false := by
  unfold expandVerbs at h
  split at h
  · next v hv =>
      simp only [List.mem_singleton] at h
      subst h
      simp [isComposite, hv, Payload.isList]
  · simp only [List.mem_map] at h
    obtain ⟨v, -, rfl⟩ := h
    rfl

end Statement

end Predication
