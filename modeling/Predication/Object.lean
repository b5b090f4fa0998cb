import Predication.Fact
import Predication.KeyMap
import Predication.Text.Quoted

namespace Predication

inductive Operation where
  | print
  | typeof
  deriving DecidableEq

/-- A built-in function. The serial number is its identity: two mentions of one function share
it, and a function made afresh has another. -/
structure Builtin where
  operation : Operation
  serial : Nat
  deriving DecidableEq

inductive Object where
  | null
  | error (message : String)
  | number (value : Int64)
  | text (value : String)
  | truth (value : Bool)
  | symbol (name : String) (members : List (String × Object))
  | builtin (function : Builtin)
  | fact (value : Fact)

namespace Object

inductive Kind where
  | null
  | error
  | number
  | text
  | truth
  | symbol
  | builtin
  | fact
  deriving DecidableEq

def Kind.label : Kind → String
  | .null => "NULL"
  | .error => "ERROR"
  | .number => "NUMBER"
  | .text => "STRING"
  | .truth => "BOOLEAN"
  | .symbol => "SYMBOL"
  | .builtin => "BUILTIN"
  | .fact => "TRIPLETA"

def kind : Object → Kind
  | .null => .null
  | .error _ => .error
  | .number _ => .number
  | .text _ => .text
  | .truth _ => .truth
  | .symbol _ _ => .symbol
  | .builtin _ => .builtin
  | .fact _ => .fact

def isNull : Object → Bool
  | .null => true
  | _ => false

def isError : Object → Bool
  | .error _ => true
  | _ => false

def withMembers (name : String) (members : List String) : String :=
  if members.isEmpty then name else name ++ " \x7b" ++ ", ".intercalate members ++ "\x7d"

mutual

def render : Object → String
  | .null => "null"
  | .error message => "ERROR: " ++ message
  | .number n => Text.intText n.toInt
  | .text s => Text.quote s
  | .truth b => boolText b
  | .symbol name members => withMembers name (renderMembers members)
  | .builtin _ => "builtin function"
  | .fact f => f.render

def renderMembers : List (String × Object) → List String
  | [] => []
  | m :: ms => renderMember m :: renderMembers ms

def renderMember : String × Object → String
  | (key, value) => key ++ ": " ++ value.render

end

mutual

def same : Object → Object → Bool
  | .null, .null => true
  | .error a, .error b => a == b
  | .number a, .number b => a == b
  | .text a, .text b => a == b
  | .truth a, .truth b => a == b
  | .symbol a ms, .symbol b ns => a == b && sameMembers ms ns
  | .builtin a, .builtin b => a == b
  | .fact a, .fact b => a == b
  | _, _ => false

def sameMembers : List (String × Object) → List (String × Object) → Bool
  | [], [] => true
  | m :: ms, n :: ns => sameMember m n && sameMembers ms ns
  | _, _ => false

def sameMember : String × Object → String × Object → Bool
  | (k, a), (l, b) => k == l && same a b

end

mutual

theorem same_iff : ∀ a b : Object, a.same b = true ↔ a = b
  | .null, b => by cases b <;> simp [same]
  | .error _, b => by cases b <;> simp [same]
  | .number _, b => by cases b <;> simp [same]
  | .text _, b => by cases b <;> simp [same]
  | .truth _, b => by cases b <;> simp [same]
  | .symbol _ ms, b => by cases b <;> simp [same, sameMembers_iff ms]
  | .builtin _, b => by cases b <;> simp [same]
  | .fact _, b => by cases b <;> simp [same]

theorem sameMembers_iff : ∀ ms ns : List (String × Object), sameMembers ms ns = true ↔ ms = ns
  | [], ns => by cases ns <;> simp [sameMembers]
  | m :: ms, ns => by cases ns <;> simp [sameMembers, sameMember_iff m, sameMembers_iff ms]

theorem sameMember_iff : ∀ m n : String × Object, sameMember m n = true ↔ m = n
  | (_, a), (_, _) => by simp [sameMember, same_iff a]

end

instance : DecidableEq Object := fun a b =>
  if h : a.same b = true then isTrue ((same_iff a b).mp h)
  else isFalse (fun e => h ((same_iff a b).mpr e))

/-- The literal term of a value. Values without a literal of their own kind become their
rendering. -/
def toLiteral : Object → Literal
  | .text s => .text s
  | .number n => .number n
  | .truth b => .truth b
  | .null => .absent
  | other => .text other.render

def toTerm (o : Object) : Term :=
  .literal o.toLiteral

end Object

end Predication
