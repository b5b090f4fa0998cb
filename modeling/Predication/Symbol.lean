import Predication.Builtin

namespace Predication

structure Symbol where
  name : String
  members : KeyMap String Object := []
  deriving DecidableEq

namespace Symbol

def toObject (s : Symbol) : Object :=
  .symbol s.name s.members

def set (s : Symbol) (key : String) (value : Object) : Symbol :=
  { s with members := s.members.insert key value }

def rename (s : Symbol) (name : String) : Symbol :=
  { s with name := name }

def member? (s : Symbol) (key : String) : Option Object :=
  s.members.get? key

def get (s : Symbol) (key : String) : Object :=
  (s.member? key).getD .null

def size (s : Symbol) : Nat :=
  s.members.length

def isEmpty (s : Symbol) : Bool :=
  s.members.isEmpty

def keys (s : Symbol) : List String :=
  s.members.keys

def render (s : Symbol) : String :=
  s.toObject.render

theorem member?_set (s : Symbol) (k l : String) (o : Object) :
    (s.set k o).member? l = if l = k then some o else s.member? l := by
  simp [set, member?, KeyMap.get?_insert]

end Symbol

end Predication
