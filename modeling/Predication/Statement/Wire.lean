import Predication.Statement

namespace Predication

inductive WireVerb where
  | branch (verb : String)
  | custom (name : String)
  deriving DecidableEq

structure WireStatement where
  scope : String
  subject : EntityId
  modalVerb : String := ""
  mainVerb : Option WireVerb := none
  condition : String := ""
  payload : Payload
  deriving DecidableEq

inductive WireError where
  | unknownAction (name : String)
  deriving DecidableEq

def WireError.message : WireError → String
  | .unknownAction name => "no action named '" ++ name ++ "'"

def MainVerb.toWire : MainVerb → Option WireVerb
  | .unbound => none
  | .branch v => some (.branch v)
  | .custom a => some (.custom a.name)

def WireVerb.bind (actions : List Action) : Option WireVerb → Except WireError MainVerb
  | none => .ok .unbound
  | some (.branch v) => .ok (.branch v)
  | some (.custom name) =>
      match actions.find? (fun a => a.name == name) with
      | some a => .ok (.custom a)
      | none => .error (.unknownAction name)

def Statement.toWire (s : Statement) : WireStatement where
  scope := s.scope
  subject := s.subject
  modalVerb := s.modalVerb
  mainVerb := s.mainVerb.toWire
  condition := s.condition
  payload := s.payload

def WireStatement.toStatement (actions : List Action) (w : WireStatement) :
    Except WireError Statement :=
  match WireVerb.bind actions w.mainVerb with
  | .error e => .error e
  | .ok v => .ok
      { scope := w.scope
        subject := w.subject
        modalVerb := w.modalVerb
        mainVerb := v
        condition := w.condition
        payload := w.payload }

theorem MainVerb.toWire_of_bind {actions : List Action} {w : Option WireVerb} {v : MainVerb}
    (h : WireVerb.bind actions w = .ok v) : v.toWire = w := by
  match w with
  | none =>
      simp only [WireVerb.bind, Except.ok.injEq] at h
      subst h
      rfl
  | some (.branch b) =>
      simp only [WireVerb.bind, Except.ok.injEq] at h
      subst h
      rfl
  | some (.custom name) =>
      simp only [WireVerb.bind] at h
      split at h
      · next a ha =>
          simp only [Except.ok.injEq] at h
          subst h
          have := List.find?_some ha
          simp_all [MainVerb.toWire]
      · cases h

end Predication
