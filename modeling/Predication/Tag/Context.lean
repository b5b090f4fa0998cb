import Predication.Tag

namespace Predication

inductive Scope where
  | definition
  | fact
  | assertion
  | function
  | expression
  deriving DecidableEq

instance : Vocabulary Scope where
  read?
    | "def" => some .definition
    | "fact" => some .fact
    | "assert" => some .assertion
    | "func" => some .function
    | "expr" => some .expression
    | _ => none
  name
    | .definition => "def"
    | .fact => "fact"
    | .assertion => "assert"
    | .function => "func"
    | .expression => "expr"
  strangerNote := "Unknown Scope"

inductive Condition where
  | manner
  | time
  | place
  deriving DecidableEq

instance : Vocabulary Condition where
  read?
    | "HOW" => some .manner
    | "WHEN" => some .time
    | "WHERE" => some .place
    | _ => none
  name
    | .manner => "HOW"
    | .time => "WHEN"
    | .place => "WHERE"
  strangerNote := "Unknown Attribute Condition"

end Predication
