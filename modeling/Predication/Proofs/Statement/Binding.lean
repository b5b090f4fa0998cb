import Predication.Proofs.Statement.WireLine

namespace Predication

def Action.FirstNamed (actions : List Action) (name : String) (a : Action) : Prop :=
  ∃ before after, actions = before ++ a :: after ∧ a.name = name ∧ ∀ b ∈ before, b.name ≠ name

/-- Custom main verbs are the same when they are one action, which their names do not say. -/
def MainVerb.Same : MainVerb → MainVerb → Prop
  | .unbound, .unbound => True
  | .branch v, .branch w => v = w
  | .custom a, .custom b => a.handle = b.handle
  | _, _ => False

def Statement.Same (s t : Statement) : Prop :=
  s.mainVerb.Same t.mainVerb ∧ { s with mainVerb := t.mainVerb } = t

theorem Action.FirstNamed.name_eq {actions : List Action} {name : String} {a : Action}
    (h : FirstNamed actions name a) : a.name = name := by
  obtain ⟨_, _, _, hname, _⟩ := h
  exact hname

theorem Action.find?_eq_some_iff {actions : List Action} {name : String} {a : Action} :
    actions.find? (fun b => b.name == name) = some a ↔ FirstNamed actions name a := by
  rw [List.find?_eq_some_iff_append]
  constructor
  · rintro ⟨ha, before, after, rfl, hbefore⟩
    refine ⟨before, after, rfl, by simpa using ha, ?_⟩
    intro b hb
    simpa using hbefore b hb
  · rintro ⟨before, after, rfl, ha, hbefore⟩
    refine ⟨by simpa using ha, before, after, rfl, ?_⟩
    intro b hb
    simpa using hbefore b hb

theorem Action.find?_eq_none_iff {actions : List Action} {name : String} :
    actions.find? (fun b => b.name == name) = none ↔ ∀ a ∈ actions, a.name ≠ name := by
  simp [List.find?_eq_none]

namespace WireVerb

variable {actions : List Action}

theorem bind_custom_of_firstNamed {name : String} {a : Action}
    (h : Action.FirstNamed actions name a) :
    bind actions (some (.custom name)) = .ok (.custom a) := by
  rw [bind, Action.find?_eq_some_iff.mpr h]

theorem bind_custom_of_missing {name : String} (h : ∀ a ∈ actions, a.name ≠ name) :
    bind actions (some (.custom name)) = .error (.unknownAction name) := by
  rw [bind, Action.find?_eq_none_iff.mpr h]

theorem bind_custom_cases (actions : List Action) (name : String) :
    (∃ a, Action.FirstNamed actions name a) ∨ ∀ a ∈ actions, a.name ≠ name := by
  cases hf : actions.find? (fun b => b.name == name) with
  | some a => exact .inl ⟨a, Action.find?_eq_some_iff.mp hf⟩
  | none => exact .inr (Action.find?_eq_none_iff.mp hf)

theorem bind_eq_error_iff {w : Option WireVerb} {e : WireError} :
    bind actions w = .error e ↔ ∃ name, w = some (.custom name) ∧
      (∀ a ∈ actions, a.name ≠ name) ∧ e = .unknownAction name := by
  constructor
  · intro h
    match w with
    | none => cases h
    | some (.branch v) => cases h
    | some (.custom name) =>
      rcases bind_custom_cases actions name with ⟨a, ha⟩ | hmissing
      · rw [bind_custom_of_firstNamed ha] at h
        cases h
      · rw [bind_custom_of_missing hmissing] at h
        cases h
        exact ⟨name, rfl, hmissing, rfl⟩
  · rintro ⟨name, rfl, hmissing, rfl⟩
    exact bind_custom_of_missing hmissing

theorem firstNamed_of_bind {name : String} {v : MainVerb}
    (h : bind actions (some (.custom name)) = .ok v) :
    ∃ a, Action.FirstNamed actions name a ∧ v = .custom a := by
  rcases bind_custom_cases actions name with ⟨a, ha⟩ | hmissing
  · rw [bind_custom_of_firstNamed ha] at h
    cases h
    exact ⟨a, ha, rfl⟩
  · rw [bind_custom_of_missing hmissing] at h
    cases h

end WireVerb

theorem Action.eq_of_name_of_handle {a b : Action} (hname : a.name = b.name)
    (hhandle : a.handle = b.handle) : a = b := by
  cases a
  cases b
  cases hname
  cases hhandle
  rfl

namespace MainVerb

theorem same_self (v : MainVerb) : v.Same v := by
  cases v <;> simp [Same]

theorem eq_of_same {v w : MainVerb} (h : v.Same w) (hwire : v.toWire = w.toWire) : v = w := by
  cases v with
  | unbound =>
    cases w with
    | unbound => rfl
    | branch _ => cases h
    | custom _ => cases h
  | branch verb =>
    cases w with
    | unbound => cases h
    | branch _ => exact congrArg branch h
    | custom _ => cases h
  | custom a =>
    cases w with
    | unbound => cases h
    | branch _ => cases h
    | custom b =>
      have hname : a.name = b.name := by simpa [toWire] using hwire
      exact congrArg custom (Action.eq_of_name_of_handle hname h)

theorem bind_toWire_iff {actions : List Action} {v : MainVerb} :
    WireVerb.bind actions v.toWire = .ok v ↔
      ∀ a, v = .custom a → ∃ b, Action.FirstNamed actions a.name b ∧ b.handle = a.handle := by
  cases v with
  | unbound => simp [toWire, WireVerb.bind]
  | branch b => simp [toWire, WireVerb.bind]
  | custom a =>
    constructor
    · rintro h _ ⟨⟩
      obtain ⟨b, hb, hab⟩ := WireVerb.firstNamed_of_bind h
      cases hab
      exact ⟨a, hb, rfl⟩
    · intro h
      obtain ⟨b, hb, hhandle⟩ := h a rfl
      obtain rfl : b = a := Action.eq_of_name_of_handle hb.name_eq hhandle
      exact WireVerb.bind_custom_of_firstNamed hb

end MainVerb

section

variable {actions : List Action}

theorem WireStatement.bind_of_toStatement {w : WireStatement} {s : Statement}
    (h : w.toStatement actions = .ok s) : WireVerb.bind actions w.mainVerb = .ok s.mainVerb := by
  unfold toStatement at h
  cases hb : WireVerb.bind actions w.mainVerb with
  | error e =>
    rw [hb] at h
    cases h
  | ok v =>
    rw [hb] at h
    cases h
    rfl

theorem WireStatement.toStatement_eq_error {w : WireStatement} {e : WireError} :
    w.toStatement actions = .error e ↔ WireVerb.bind actions w.mainVerb = .error e := by
  unfold toStatement
  cases WireVerb.bind actions w.mainVerb <;> simp

namespace Statement

theorem toStatement_toWire_of_bind {s : Statement}
    (h : WireVerb.bind actions s.mainVerb.toWire = .ok s.mainVerb) :
    s.toWire.toStatement actions = .ok s := by
  have hverb : s.toWire.mainVerb = s.mainVerb.toWire := rfl
  rw [WireStatement.toStatement, hverb, h]
  rfl

theorem eq_of_toStatement_toWire {s t : Statement} (h : s.toWire.toStatement actions = .ok t)
    (hsame : t.Same s) : t = s := by
  have hwire : t.toWire = s.toWire := WireStatement.toWire_of_toStatement h
  have hverb : t.mainVerb = s.mainVerb :=
    MainVerb.eq_of_same hsame.1 (congrArg WireStatement.mainVerb hwire)
  rw [← hsame.2, ← hverb]

structure Binds (actions : List Action) : Prop where
  error_iff : ∀ (w : WireStatement) (e : WireError), w.toStatement actions = .error e ↔
    ∃ name, w.mainVerb = some (.custom name) ∧ (∀ a ∈ actions, a.name ≠ name) ∧
      e = .unknownAction name
  wire : ∀ (w : WireStatement) (s : Statement), w.toStatement actions = .ok s → s.toWire = w
  first : ∀ (w : WireStatement) (s : Statement), w.toStatement actions = .ok s →
    ∀ name, w.mainVerb = some (.custom name) →
      ∃ a, Action.FirstNamed actions name a ∧ s.mainVerb = .custom a
  restored_iff : ∀ s : Statement, (∃ t, s.toWire.toStatement actions = .ok t ∧ t.Same s) ↔
    ∀ a, s.mainVerb = .custom a →
      ∃ b, Action.FirstNamed actions a.name b ∧ b.handle = a.handle
  invoke : ∀ s t : Statement, s.toWire.toStatement actions = .ok t → t.Same s →
    ∀ (host : Host) (entity : Entity),
      t.mainVerb.invoke host entity = s.mainVerb.invoke host entity

theorem binding_of_mainVerbs (actions : List Action) : Binds actions where
  error_iff w e := by
    rw [WireStatement.toStatement_eq_error, WireVerb.bind_eq_error_iff]
  wire w s := WireStatement.toWire_of_toStatement
  first w s h name hname := by
    have hbind := WireStatement.bind_of_toStatement h
    rw [hname] at hbind
    exact WireVerb.firstNamed_of_bind hbind
  restored_iff s := by
    rw [← MainVerb.bind_toWire_iff]
    constructor
    · rintro ⟨t, ht, hsame⟩
      obtain rfl := eq_of_toStatement_toWire ht hsame
      exact WireStatement.bind_of_toStatement ht
    · intro h
      exact ⟨s, toStatement_toWire_of_bind h, s.mainVerb.same_self, rfl⟩
  invoke s t ht hsame host entity := by
    rw [eq_of_toStatement_toWire ht hsame]

example (s : Statement) :
    { s with mainVerb := .custom ⟨"shout", 1⟩ }.toWire.toStatement
      [⟨"whisper", 2⟩, ⟨"shout", 0⟩, ⟨"shout", 1⟩] =
        .ok { s with mainVerb := .custom ⟨"shout", 0⟩ } := by
  rfl

end Statement

end

end Predication
