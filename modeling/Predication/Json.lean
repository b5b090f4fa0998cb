/-!
JSON values as a statement's reader needs them. A text whose escapes name half of a surrogate pair
is well formed but has no value, and of numbers only plain unsigned integers have one.
-/

namespace Predication

inductive Json where
  | null
  | truth (value : Bool)
  | number (value : Option Nat)
  | text (value : Option String)
  | array (items : List Json)
  | object (members : List (Option String × Json))

namespace Json

def text? : Json → Option String
  | .text value => value
  | _ => none

def number? : Json → Option Nat
  | .number value => value
  | _ => none

/-- The member of a name that must not be repeated: `none` if it is, `some none` if it is missing.
-/
def member? (key : String) (members : List (Option String × Json)) : Option (Option Json) :=
  match members.filter (fun m => m.1 == some key) with
  | [] => some none
  | [m] => some (some m.2)
  | _ => none

end Json

end Predication
