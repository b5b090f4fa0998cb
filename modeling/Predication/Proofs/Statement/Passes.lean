import Predication.Statement.Expansion
import Mathlib.Algebra.Group.Nat.Defs
import Mathlib.Data.List.Basic

namespace Predication.Statement

def runPasses (axes : List ExpansionAxis) (ss : List Statement) : List Statement :=
  axes.foldl (fun ss axis => expandAll axis ss) ss

def block (axes : List ExpansionAxis) (s : Statement) : List Statement :=
  runPasses axes [s]

def leadingAttributes (axes : List ExpansionAxis) : Nat :=
  (axes.takeWhile (fun axis => axis = .attributes)).length

def attributeCopies (s : Statement) (items : List String) : List Statement :=
  items.map fun item => { s with condition := item }

def verbCopies (items : List String) (s : Statement) : List Statement :=
  items.map fun item => { s with mainVerb := .branch item, payload := .scalar item }

/-- A statement after so many attribute passes: each pass after the first repeats the copies that
the first one made, once for every item. -/
def attributed (s : Statement) (items : List String) : Nat → List Statement
  | 0 => [s]
  | n + 1 => (List.replicate (items.length ^ n) (s.attributeCopies items)).flatten

theorem runPasses_cons (axis : ExpansionAxis) (axes : List ExpansionAxis) (ss : List Statement) :
    runPasses (axis :: axes) ss = runPasses axes (expandAll axis ss) := rfl

theorem runPasses_append (axes more : List ExpansionAxis) (ss : List Statement) :
    runPasses (axes ++ more) ss = runPasses more (runPasses axes ss) := by
  simp [runPasses]

theorem runPasses_concat (axes : List ExpansionAxis) (ss ts : List Statement) :
    runPasses axes (ss ++ ts) = runPasses axes ss ++ runPasses axes ts := by
  induction axes generalizing ss ts with
  | nil => rfl
  | cons axis axes ih =>
    have he : expandAll axis (ss ++ ts) = expandAll axis ss ++ expandAll axis ts :=
      List.flatMap_append
    rw [runPasses_cons, he, ih]
    rfl

theorem runPasses_nil_right (axes : List ExpansionAxis) : runPasses axes [] = [] := by
  induction axes with
  | nil => rfl
  | cons axis axes ih => exact ih

theorem runPasses_eq_flatMap (axes : List ExpansionAxis) (ss : List Statement) :
    runPasses axes ss = ss.flatMap (block axes) := by
  induction ss with
  | nil => exact runPasses_nil_right axes
  | cons s ss ih =>
    rw [List.flatMap_cons, ← ih]
    exact runPasses_concat axes [s] ss

theorem block_cons (axis : ExpansionAxis) (axes : List ExpansionAxis) (s : Statement) :
    block (axis :: axes) s = (expand axis s).flatMap (block axes) := by
  rw [block, runPasses_cons, expandAll, List.flatMap_singleton]
  exact runPasses_eq_flatMap axes (expand axis s)

theorem expandAll_of_atomic {axis : ExpansionAxis} {ss : List Statement}
    (h : ∀ s ∈ ss, s.isComposite = false) : expandAll axis ss = ss := by
  have hs : ∀ s ∈ ss, expand axis s = [s] := by
    intro s hs
    have hp := h s hs
    cases hv : s.payload with
    | list items => simp [isComposite, hv, Payload.isList] at hp
    | scalar v =>
      cases axis with
      | verbs => exact expandVerbs_of_scalar hv
      | attributes => exact expandAttributes_of_scalar hv
  rw [expandAll, List.flatMap_congr hs, List.flatMap_singleton']

theorem runPasses_of_atomic {axes : List ExpansionAxis} {ss : List Statement}
    (h : ∀ s ∈ ss, s.isComposite = false) : runPasses axes ss = ss := by
  induction axes with
  | nil => rfl
  | cons axis axes ih => rw [runPasses_cons, expandAll_of_atomic h, ih]

theorem atomic_expandAll_verbs (ss : List Statement) :
    ∀ s ∈ expandAll .verbs ss, s.isComposite = false := by
  intro s hs
  obtain ⟨t, -, ht⟩ := List.mem_flatMap.mp hs
  exact isComposite_of_mem_expandVerbs ht

theorem runPasses_from_verbs (before after : List ExpansionAxis) (ss : List Statement) :
    runPasses (before ++ .verbs :: after) ss = expandAll .verbs (runPasses before ss) := by
  rw [runPasses_append, runPasses_cons]
  exact runPasses_of_atomic (atomic_expandAll_verbs _)

theorem eq_replicate_of_no_verbs {axes : List ExpansionAxis} (h : .verbs ∉ axes) :
    axes = List.replicate (leadingAttributes axes) .attributes := by
  induction axes with
  | nil => rfl
  | cons axis axes ih =>
    cases axis with
    | verbs => simp at h
    | attributes =>
      have ht := ih (fun hv => h (List.mem_cons_of_mem _ hv))
      rw [leadingAttributes, List.takeWhile_cons_of_pos (by simp), List.length_cons,
        List.replicate_succ]
      exact congrArg _ ht

theorem split_at_first_verbs {axes : List ExpansionAxis} (h : .verbs ∈ axes) :
    ∃ after, axes = List.replicate (leadingAttributes axes) .attributes ++ .verbs :: after := by
  induction axes with
  | nil => simp at h
  | cons axis axes ih =>
    cases axis with
    | verbs => exact ⟨axes, rfl⟩
    | attributes =>
      obtain ⟨after, ht⟩ := ih (by simpa using h)
      refine ⟨after, ?_⟩
      rw [leadingAttributes, List.takeWhile_cons_of_pos (by simp), List.length_cons,
        List.replicate_succ]
      exact congrArg _ ht

theorem atomic_of_verbs {axes : List ExpansionAxis} (h : .verbs ∈ axes) (ss : List Statement) :
    ∀ t ∈ runPasses axes ss, t.isComposite = false := by
  obtain ⟨after, ha⟩ := split_at_first_verbs h
  rw [ha, runPasses_from_verbs]
  exact atomic_expandAll_verbs _

section List

variable {s : Statement} {items : List String} (h : s.payload = .list items)
include h

theorem expandVerbs_of_list : s.expandVerbs = verbCopies items s := by
  simp [expandVerbs, verbCopies, h]

theorem expandAttributes_of_list : s.expandAttributes = s.attributeCopies items := by
  simp [expandAttributes, attributeCopies, h]

theorem length_expandVerbs : s.expandVerbs.length = items.length := by
  simp [expandVerbs, h]

theorem length_expandAttributes : s.expandAttributes.length = items.length := by
  simp [expandAttributes, h]

theorem payload_of_mem_expandAttributes {t : Statement} (ht : t ∈ s.expandAttributes) :
    t.payload = .list items := by
  simp only [expandAttributes, h, List.mem_map] at ht
  obtain ⟨a, -, rfl⟩ := ht
  rfl

theorem expandAttributes_of_mem {t : Statement} (ht : t ∈ s.expandAttributes) :
    t.expandAttributes = s.expandAttributes := by
  simp only [expandAttributes, h, List.mem_map] at ht
  obtain ⟨a, -, rfl⟩ := ht
  simp [expandAttributes, h]

theorem block_attributes_succ (n : Nat) :
    block (List.replicate (n + 1) .attributes) s =
      (List.replicate (items.length ^ n) s.expandAttributes).flatten := by
  induction n generalizing s with
  | zero => simp [block, runPasses, expandAll, expand]
  | succ n ih =>
    have hb : ∀ t ∈ s.expandAttributes, block (List.replicate (n + 1) .attributes) t =
        (List.replicate (items.length ^ n) s.expandAttributes).flatten := by
      intro t ht
      rw [ih (payload_of_mem_expandAttributes h ht), expandAttributes_of_mem h ht]
    rw [List.replicate_succ, block_cons]
    calc s.expandAttributes.flatMap (block (List.replicate (n + 1) .attributes))
        = s.expandAttributes.flatMap
            (fun _ => (List.replicate (items.length ^ n) s.expandAttributes).flatten) :=
          List.flatMap_congr hb
      _ = ((List.replicate items.length
            (List.replicate (items.length ^ n) s.expandAttributes)).map List.flatten).flatten := by
          rw [List.flatMap_def, List.map_const', length_expandAttributes h, List.map_replicate]
      _ = (List.replicate (items.length ^ (n + 1)) s.expandAttributes).flatten := by
          rw [← List.flatten_flatten, List.flatten_replicate_replicate, Nat.pow_succ,
            Nat.mul_comm]

theorem block_attributes (n : Nat) :
    block (List.replicate n .attributes) s = s.attributed items n := by
  cases n with
  | zero => rfl
  | succ n => rw [block_attributes_succ h, expandAttributes_of_list h, attributed]

theorem payload_of_mem_attributed {n : Nat} {t : Statement} (ht : t ∈ s.attributed items n) :
    t.payload = .list items := by
  cases n with
  | zero => exact List.mem_singleton.mp ht ▸ h
  | succ n =>
    obtain ⟨copies, hm, ht⟩ := List.mem_flatten.mp ht
    rw [(List.mem_replicate.mp hm).2, ← expandAttributes_of_list h] at ht
    exact payload_of_mem_expandAttributes h ht

theorem flatMap_expandVerbs_attributed (n : Nat) :
    (s.attributed items n).flatMap expandVerbs =
      (s.attributed items n).flatMap (verbCopies items) :=
  List.flatMap_congr fun _ ht => expandVerbs_of_list (payload_of_mem_attributed h ht)

end List

theorem length_attributed (s : Statement) (items : List String) (n : Nat) :
    (s.attributed items n).length = items.length ^ n := by
  cases n with
  | zero => rfl
  | succ n => simp [attributed, attributeCopies, Nat.pow_succ]

theorem length_flatMap_verbCopies (s : Statement) (items : List String) (n : Nat) :
    ((s.attributed items n).flatMap (verbCopies items)).length = items.length ^ (n + 1) := by
  have hl : ∀ t, (verbCopies items t).length = items.length := fun t => List.length_map ..
  simp only [List.length_flatMap, hl, List.map_const', List.sum_replicate_nat,
    length_attributed, Nat.pow_succ]

structure AttributeBlock (axes : List ExpansionAxis) (s : Statement) (items : List String) :
    Prop where
  passes : leadingAttributes axes = axes.length
  contents : block axes s = s.attributed items (leadingAttributes axes)
  count : (block axes s).length = items.length ^ leadingAttributes axes
  repeated : 1 ≤ leadingAttributes axes → block axes s =
    (List.replicate (items.length ^ (leadingAttributes axes - 1)) s.expandAttributes).flatten

structure VerbBlock (axes : List ExpansionAxis) (s : Statement) (items : List String) : Prop where
  contents : block axes s =
    (s.attributed items (leadingAttributes axes)).flatMap (verbCopies items)
  count : (block axes s).length = items.length ^ (leadingAttributes axes + 1)
  expanded : block axes s =
    (block (List.replicate (leadingAttributes axes) .attributes) s).flatMap expandVerbs
  expanded_count : (block (List.replicate (leadingAttributes axes) .attributes) s).length =
    items.length ^ leadingAttributes axes
  atomic : ∀ t ∈ block axes s, t.isComposite = false

theorem attributeBlock {axes : List ExpansionAxis} {s : Statement} {items : List String}
    (h : s.payload = .list items) (hv : .verbs ∉ axes) : AttributeBlock axes s items := by
  have ha := eq_replicate_of_no_verbs hv
  have hb : block axes s = s.attributed items (leadingAttributes axes) := by
    conv_lhs => rw [ha]
    exact block_attributes h _
  exact {
    passes := by simpa using (congrArg List.length ha).symm
    contents := hb
    count := by rw [hb, length_attributed]
    repeated := by
      intro hpos
      obtain ⟨n, hn⟩ := Nat.exists_eq_add_of_le' hpos
      rw [hb, hn, attributed, expandAttributes_of_list h, Nat.add_sub_cancel] }

theorem verbBlock {axes : List ExpansionAxis} {s : Statement} {items : List String}
    (h : s.payload = .list items) (hv : .verbs ∈ axes) : VerbBlock axes s items := by
  obtain ⟨after, ha⟩ := split_at_first_verbs hv
  have hb : block axes s =
      (block (List.replicate (leadingAttributes axes) .attributes) s).flatMap expandVerbs := by
    conv_lhs => rw [ha]
    exact runPasses_from_verbs _ _ _
  have hc : block axes s =
      (s.attributed items (leadingAttributes axes)).flatMap (verbCopies items) := by
    rw [hb, block_attributes h, flatMap_expandVerbs_attributed h]
  exact {
    contents := hc
    count := by rw [hc, length_flatMap_verbCopies]
    expanded := hb
    expanded_count := by rw [block_attributes h, length_attributed]
    atomic := atomic_of_verbs hv [s] }

structure Blocks (axes : List ExpansionAxis) (ss : List Statement) : Prop where
  concatenated : runPasses axes ss = ss.flatMap (block axes)
  scalar : ∀ s v, s.payload = .scalar v → block axes s = [s]
  attributes : ∀ s items, s.payload = .list items → .verbs ∉ axes → AttributeBlock axes s items
  verbs : ∀ s items, s.payload = .list items → .verbs ∈ axes → VerbBlock axes s items
  atomic : .verbs ∈ axes → ∀ t ∈ runPasses axes ss, t.isComposite = false
  fixed : .verbs ∈ axes → ∀ more, runPasses (axes ++ more) ss = runPasses axes ss

theorem runPasses_blocks (axes : List ExpansionAxis) (ss : List Statement) : Blocks axes ss where
  concatenated := runPasses_eq_flatMap axes ss
  scalar s v h := runPasses_of_atomic (by simp [isComposite, h, Payload.isList])
  attributes s items := attributeBlock
  verbs s items := verbBlock
  atomic hv := atomic_of_verbs hv ss
  fixed hv more := by rw [runPasses_append, runPasses_of_atomic (atomic_of_verbs hv ss)]

end Predication.Statement
