namespace Predication

/-- Values with names. The names are read by a table of their own, not by way of the values. -/
class Lexicon (α : Type) where
  read? : String → Option α
  name : α → String

/-- Values whose names are shown, with the words that label a text outside them. -/
class Vocabulary (α : Type) extends Lexicon α where
  strangerNote : String

inductive Tag (α : Type) where
  | declared (value : α)
  | stranger (raw : String)
  deriving DecidableEq

namespace Tag

variable {α : Type}

def ofRaw [Lexicon α] (raw : String) : Tag α :=
  match Lexicon.read? raw with
  | some a => .declared a
  | none => .stranger raw

def raw [Lexicon α] : Tag α → String
  | .declared a => Lexicon.name a
  | .stranger s => s

def label [Vocabulary α] : Tag α → String
  | .declared a => Lexicon.name a
  | .stranger s => Vocabulary.strangerNote α ++ ": (" ++ s ++ ")"

def value? : Tag α → Option α
  | .declared a => some a
  | .stranger _ => none

def isDeclared (t : Tag α) : Bool :=
  t.value?.isSome

end Tag

end Predication
