import Predication.Entity

namespace Predication

inductive Payload where
  | scalar (value : String)
  | list (items : List String)
  deriving DecidableEq

def Payload.isList : Payload → Bool
  | .scalar _ => false
  | .list _ => true

def Payload.render : Payload → String
  | .scalar s => s
  | .list items => "\x7b" ++ ", ".intercalate items ++ "\x7d"

/-- An action that a caller supplies. The handle is its identity; what the action does is the
caller's business. -/
structure Action where
  name : String
  handle : Nat
  deriving DecidableEq

inductive MainVerb where
  | unbound
  | branch (verb : String)
  | custom (action : Action)
  deriving DecidableEq

inductive VerbError where
  | unbound
  | failed (message : String)
  deriving DecidableEq

def VerbError.message : VerbError → String
  | .unbound => "no main verb bound"
  | .failed m => "action failed: " ++ m

abbrev Host := Action → Entity → Except VerbError Object

structure Statement where
  scope : String
  subject : EntityId
  modalVerb : String
  mainVerb : MainVerb := .unbound
  condition : String
  payload : Payload
  deriving DecidableEq

namespace MainVerb

def debug : MainVerb → String
  | .unbound => "Unbound"
  | .branch v => "Branch \x7b verb: " ++ Text.quote v ++ " \x7d"
  | .custom a => "Custom(Action \x7b name: " ++ Text.quote a.name ++ " \x7d)"

def invoke (host : Host) (v : MainVerb) (e : Entity) : Except VerbError Object :=
  match v with
  | .unbound => .error .unbound
  | .branch verb => .ok (.text (e.publicName ++ " is " ++ verb))
  | .custom a => host a e

end MainVerb

namespace Statement

def isComposite (s : Statement) : Bool :=
  s.payload.isList

def render (s : Statement) : String :=
  s.scope ++ " " ++ s.subject.render ++ " " ++ s.modalVerb ++ ":" ++ s.payload.render ++
    (if s.condition.isEmpty then "" else " " ++ s.condition) ++ ";"

end Statement

end Predication
