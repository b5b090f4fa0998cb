import Predication.Object

namespace Predication

def Operation.name : Operation → String
  | .print => "print"
  | .typeof => "typeof"

def Operation.all : List Operation := [.print, .typeof]

def Operation.named? (name : String) : Option Operation :=
  Operation.all.find? (fun op => op.name == name)

def Operation.arity : Operation → Nat
  | .print => 1
  | .typeof => 1

structure Reply where
  value : Object
  printed : String := ""

def wrongArity (got want : Nat) : Object :=
  .error ("wrong number of arguments. got=" ++ Text.natText got ++ ", want=" ++ Text.natText want)

namespace Builtin

def name (b : Builtin) : String :=
  b.operation.name

def debug (b : Builtin) : String :=
  "Builtin \x7b name: " ++ Text.quote b.name ++ " \x7d"

def call (b : Builtin) (args : List Object) : Reply :=
  match b.operation, args with
  | .print, [a] => ⟨.null, a.render ++ "\n"⟩
  | .typeof, [a] => ⟨.text a.kind.label, ""⟩
  | op, args => ⟨wrongArity args.length op.arity, ""⟩

end Builtin

end Predication
