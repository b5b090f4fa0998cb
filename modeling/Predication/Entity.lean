import Predication.Object

namespace Predication

structure EntityId where
  number : UInt32
  deriving DecidableEq

def EntityId.count : Nat := UInt32.size

instance : LT EntityId := ⟨fun a b => a.number < b.number⟩

instance : DecidableLT EntityId := fun a b => inferInstanceAs (Decidable (a.number < b.number))

def EntityId.render (id : EntityId) : String :=
  "#" ++ Text.natText id.number.toNat

inductive EntityState where
  | exists
  | embodied
  deriving DecidableEq

def EntityState.name : EntityState → String
  | .exists => "exists"
  | .embodied => "embodied"

structure Entity where
  id : EntityId
  publicName : String := ""
  state : EntityState := .exists
  thing : String := "Thing"
  value : Object := .null
  properties : KeyMap String Object := []
  deriving DecidableEq

namespace Entity

def instantiate (e : Entity) (value : Object) : Entity :=
  { e with value := value, state := .embodied }

def setProperty (e : Entity) (key : String) (value : Object) : Entity :=
  { e with properties := e.properties.insert key value }

def property (e : Entity) (key : String) : Object :=
  (e.properties.get? key).getD .null

def displayName (e : Entity) : String :=
  if e.publicName.isEmpty then "anon:" ++ Text.natText e.id.number.toNat else e.publicName

def render (e : Entity) : String :=
  "[" ++ e.displayName ++ " | " ++ e.state.name ++ " | " ++ e.thing ++ " | " ++
    e.value.render ++ "]"

end Entity

end Predication
