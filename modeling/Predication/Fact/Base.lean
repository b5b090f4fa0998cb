import Predication.Fact

namespace Predication

structure FactBase where
  facts : List Fact := []
  deriving DecidableEq

namespace FactBase

def empty : FactBase := ⟨[]⟩

def add (b : FactBase) (f : Fact) : FactBase :=
  ⟨b.facts ++ [f]⟩

def extend (b : FactBase) (fs : List Fact) : FactBase :=
  ⟨b.facts ++ fs⟩

def find (b : FactBase) (pattern : Fact) : List Fact :=
  b.facts.filter (fun f => f.fits pattern)

/-- Whether a fact has exactly this subject and this predicate; variables are plain terms here. -/
def hasKey (subject predicate : Term) (f : Fact) : Bool :=
  f.subject == subject && f.predicate == predicate

def retract (b : FactBase) (subject predicate : Term) : FactBase × Nat :=
  (⟨b.facts.filter (fun f => !hasKey subject predicate f)⟩,
    b.facts.countP (hasKey subject predicate))

def size (b : FactBase) : Nat :=
  b.facts.length

def isEmpty (b : FactBase) : Bool :=
  b.facts.isEmpty

@[simp] theorem facts_add (b : FactBase) (f : Fact) : (b.add f).facts = b.facts ++ [f] := rfl

@[simp] theorem facts_extend (b : FactBase) (fs : List Fact) :
    (b.extend fs).facts = b.facts ++ fs := rfl

end FactBase

end Predication
