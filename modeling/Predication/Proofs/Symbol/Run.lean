import Predication.Proofs.Object.Agreement
import Mathlib.Data.Finset.Dedup
import Mathlib.Data.Finset.Card

namespace Predication

namespace Symbol

inductive Step where
  | set (key : String) (value : Object)
  | rename (name : String)

namespace Step

def key? : Step → Option String
  | .set key _ => some key
  | .rename _ => none

def value? (k : String) : Step → Option Object
  | .set key value => if k = key then some value else none
  | .rename _ => none

def name? : Step → Option String
  | .set _ _ => none
  | .rename name => some name

def Sound : Step → Prop
  | .set _ value => Object.Made value
  | .rename _ => True

theorem isSome_value?_iff (k : String) (t : Step) : (t.value? k).isSome ↔ t.key? = some k := by
  cases t with
  | set key value =>
    by_cases h : k = key
    · simp [value?, key?, h]
    · simp [value?, key?, h, Ne.symm h]
  | rename name => simp [value?, key?]

end Step

def perform (s : Symbol) : Step → Symbol
  | .set key value => s.set key value
  | .rename name => s.rename name

def run (name : String) (steps : List Step) : Symbol :=
  steps.foldl perform { name := name }

section LastWrites

variable (name k : String) (steps : List Step) (t : Step)

def lastWrite? : Option Object :=
  steps.reverse.findSome? (Step.value? k)

def written : List String :=
  steps.filterMap Step.key?

def lastName : String :=
  (steps.reverse.findSome? Step.name?).getD name

theorem run_concat : run name (steps ++ [t]) = (run name steps).perform t := by
  simp [run]

theorem lastWrite?_concat :
    lastWrite? k (steps ++ [t]) = (t.value? k).or (lastWrite? k steps) := by
  simp only [lastWrite?, List.reverse_append, List.reverse_singleton, List.singleton_append,
    List.findSome?_cons]
  cases t.value? k <;> rfl

theorem lastName_concat : lastName name (steps ++ [t]) = t.name?.getD (lastName name steps) := by
  simp only [lastName, List.reverse_append, List.reverse_singleton, List.singleton_append,
    List.findSome?_cons]
  cases t.name? <;> rfl

theorem isSome_lastWrite?_iff : (lastWrite? k steps).isSome ↔ k ∈ written steps := by
  simp only [lastWrite?, written, List.isSome_findSome?, List.any_reverse, List.any_eq_true,
    List.mem_filterMap, Step.isSome_value?_iff]

end LastWrites

structure Holds (name : String) (steps : List Step) (s : Symbol) : Prop where
  name : s.name = lastName name steps
  member : ∀ k, s.member? k = lastWrite? k steps
  get : ∀ k, s.get k = (lastWrite? k steps).getD .null
  present : ∀ k, (s.member? k).isSome ↔ k ∈ written steps
  size : s.size = (written steps).toFinset.card
  isEmpty : s.isEmpty = true ↔ s.size = 0
  ascending : s.keys.Pairwise (· < ·)
  keys : ∀ k, k ∈ s.keys ↔ k ∈ written steps

section Steps

variable {s : Symbol} (t : Step)

theorem name_perform : (s.perform t).name = t.name?.getD s.name := by
  cases t <;> rfl

theorem member?_perform (k : String) :
    (s.perform t).member? k = (t.value? k).or (s.member? k) := by
  cases t with
  | set key value =>
    rw [perform, member?_set, Step.value?]
    split <;> rfl
  | rename name => rfl

theorem ascending_perform (h : KeyMap.Ascending s.members) :
    KeyMap.Ascending (s.perform t).members := by
  cases t with
  | set key value => exact h.insert key value
  | rename name => exact h

theorem made_perform (h : Object.Made s.toObject) (ht : t.Sound) :
    Object.Made (s.perform t).toObject := by
  cases t with
  | set key value => exact .set h ht key
  | rename name => exact .rename h name

end Steps

theorem toObject_injective : Function.Injective toObject := by
  rintro ⟨name, members⟩ ⟨name', members'⟩ h
  cases h
  rfl

section Runs

variable (name : String) (steps : List Step)

theorem name_run : (run name steps).name = lastName name steps := by
  induction steps using List.reverseRecOn with
  | nil => rfl
  | append_singleton steps t ih => rw [run_concat, name_perform, ih, lastName_concat]

theorem member?_run (k : String) : (run name steps).member? k = lastWrite? k steps := by
  induction steps using List.reverseRecOn with
  | nil => rfl
  | append_singleton steps t ih => rw [run_concat, member?_perform, ih, lastWrite?_concat]

theorem ascending_run : KeyMap.Ascending (run name steps).members := by
  induction steps using List.reverseRecOn with
  | nil => exact List.Pairwise.nil
  | append_singleton steps t ih =>
    rw [run_concat]
    exact ascending_perform t ih

theorem made_run (h : ∀ t ∈ steps, t.Sound) : Object.Made (run name steps).toObject := by
  induction steps using List.reverseRecOn with
  | nil => exact .fresh name
  | append_singleton steps t ih =>
    rw [run_concat]
    exact made_perform t (ih fun u hu => h u (List.mem_append_left [t] hu)) (h t (by simp))

theorem holds_run : Holds name steps (run name steps) := by
  have present (k : String) : ((run name steps).member? k).isSome ↔ k ∈ written steps := by
    rw [member?_run, isSome_lastWrite?_iff]
  have ascending : (run name steps).keys.Pairwise (· < ·) :=
    KeyMap.ascending_iff_keys.mp (ascending_run name steps)
  have keys (k : String) : k ∈ (run name steps).keys ↔ k ∈ written steps :=
    (KeyMap.mem_keys_iff k _).trans (present k)
  constructor
  case name => exact name_run name steps
  case member => exact member?_run name steps
  case get => exact fun k => by rw [get, member?_run]
  case present => exact present
  case size =>
    have hkeys : (run name steps).keys.toFinset = (written steps).toFinset := by
      ext k
      simp [keys k]
    have hnodup : (run name steps).keys.Nodup := ascending.imp fun h => String.ne_of_lt h
    rw [← hkeys, List.toFinset_card_of_nodup hnodup, Symbol.keys, KeyMap.keys, List.length_map]
    rfl
  case isEmpty => exact List.isEmpty_iff.trans List.length_eq_zero_iff.symm
  case ascending => exact ascending
  case keys => exact keys

end Runs

theorem canonical_run (name name' : String) (steps steps' : List Step) :
    Holds name steps (run name steps) ∧
    ((∀ t ∈ steps, t.Sound) → (∀ t ∈ steps', t.Sound) →
      ((run name steps).toObject.same (run name' steps').toObject = true ↔
        lastName name steps = lastName name' steps' ∧
        ∀ k, Option.Rel Object.Agrees (lastWrite? k steps) (lastWrite? k steps'))) ∧
    ((run name steps).toObject.same (run name' steps').toObject = true →
      (run name steps).keys = (run name' steps').keys ∧
      (run name steps).render = (run name' steps').render) := by
  refine ⟨holds_run name steps, ?_, ?_⟩
  · intro hs hs'
    rw [Object.same_iff_agrees (made_run name steps hs) (made_run name' steps' hs'),
      toObject, toObject, Object.agrees_symbol_iff, name_run, name_run]
    refine and_congr_right fun _ => forall_congr' fun k => ?_
    rw [← member?_run name steps k, ← member?_run name' steps' k, member?, member?]
  · intro h
    have heq : run name steps = run name' steps' :=
      toObject_injective ((Object.same_iff _ _).mp h)
    rw [heq]
    exact ⟨rfl, rfl⟩

theorem canonical_run_either_order :
    (∀ k, Option.Rel Object.Agrees
      (lastWrite? k [.set "hand" .null, .set "length" (.number 7),
        .set "hand" (run "hand" [.set "a" (.truth true), .set "b" .null]).toObject])
      (lastWrite? k [.set "hand" (run "hand" [.set "b" .null, .set "a" (.truth true)]).toObject,
        .rename "arm", .set "length" (.number 7)])) ∧
    (run "arm" [.set "hand" .null, .set "length" (.number 7),
        .set "hand" (run "hand" [.set "a" (.truth true), .set "b" .null]).toObject]).render =
      (run "" [.set "hand" (run "hand" [.set "b" .null, .set "a" (.truth true)]).toObject,
        .rename "arm", .set "length" (.number 7)]).render := by
  have number : Object.Made (.number 7) := .plain (by decide)
  have null : Object.Made .null := .plain (by decide)
  have truth : Object.Made (.truth true) := .plain (by decide)
  have hand : Object.Made (run "hand" [.set "a" (.truth true), .set "b" .null]).toObject :=
    made_run "hand" _ (by simp [Step.Sound, truth, null])
  have hand' : Object.Made (run "hand" [.set "b" .null, .set "a" (.truth true)]).toObject :=
    made_run "hand" _ (by simp [Step.Sound, truth, null])
  have same : (run "arm" [.set "hand" .null, .set "length" (.number 7),
      .set "hand" (run "hand" [.set "a" (.truth true), .set "b" .null]).toObject]).toObject.same
    (run "" [.set "hand" (run "hand" [.set "b" .null, .set "a" (.truth true)]).toObject,
      .rename "arm", .set "length" (.number 7)]).toObject = true := by decide
  refine ⟨((canonical_run _ _ _ _).2.1 ?_ ?_).mp same |>.2, ((canonical_run _ _ _ _).2.2 same).2⟩
  · simp [Step.Sound, number, null, hand]
  · simp [Step.Sound, number, hand']

end Symbol

end Predication
