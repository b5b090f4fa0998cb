import Predication.Entity.Registry
import Predication.Fact.Base
import Predication.Statement

namespace Predication.Statement

def subjectName (r : Registry) (s : Statement) : String :=
  match r.get? s.subject with
  | some e => e.displayName
  | none => s.subject.render

def lower (r : Registry) (s : Statement) : Fact where
  subject := .symbol (s.subjectName r)
  predicate := .action (s.modalVerb ++ ":" ++ s.payload.render)
  object := if s.condition.isEmpty then .literal .absent else .symbol s.condition

end Predication.Statement
