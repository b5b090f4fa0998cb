import Predication.Tag

namespace Predication

inductive KnownCategory where
  | literal
  | identifier
  | predicate
  | scope
  | abbreviation
  deriving DecidableEq

instance : Lexicon KnownCategory where
  read?
    | "Literal" => some .literal
    | "Identifier" => some .identifier
    | "Predicate" => some .predicate
    | "TripletScope" => some .scope
    | "Macro" => some .abbreviation
    | _ => none
  name
    | .literal => "Literal"
    | .identifier => "Identifier"
    | .predicate => "Predicate"
    | .scope => "TripletScope"
    | .abbreviation => "Macro"

abbrev Category := Tag KnownCategory

end Predication
