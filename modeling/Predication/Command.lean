import Predication.Definition
import Predication.Statement.Expansion

namespace Predication

inductive Command where
  | setup (seedFile : Option String)
  | symbols
  | lookup (name : String)
  | stats
  | remove (name : String)
  | upsert (definition : Definition)
  | expand (file : String) (axis : ExpansionAxis)
  | verb (raw : String) (core : Bool)
  deriving DecidableEq

structure Invocation where
  db : Option String := none
  verbose : Bool := false
  command : Command
  deriving DecidableEq

end Predication
