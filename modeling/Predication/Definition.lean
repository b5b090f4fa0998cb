import Predication.Embedding
import Predication.Tag.Category

namespace Predication

structure Definition where
  name : String
  category : String
  embedding : String := ""
  deriving DecidableEq, Repr

structure ResolvedDefinition where
  name : String
  category : Category
  embedding : Embedding
  deriving DecidableEq

namespace Definition

def tag (d : Definition) : Category :=
  Tag.ofRaw d.category

def vector (d : Definition) : Except EmbeddingError Embedding :=
  Embedding.parse d.embedding

/-- An embedding that cannot be read counts as the empty vector here. -/
def resolve (d : Definition) : ResolvedDefinition where
  name := d.name
  category := d.tag
  embedding := d.vector.toOption.getD []

def wellKnown : List Definition := [
  ⟨"fact", "TripletScope", "0.1 0.2 0.3"⟩,
  ⟨"program", "TripletScope", "0.4 0.5 0.6"⟩,
  ⟨"func", "TripletScope", "0.7 0.8 0.9"⟩,
  ⟨"service", "TripletScope", "1.0 1.1 1.2"⟩,
  ⟨"var", "TripletScope", "1.3 1.4 1.5"⟩,
  ⟨"is", "Predicate", "0.11 0.22 0.33"⟩,
  ⟨"has:", "Predicate", "0.44 0.55 0.66"⟩,
  ⟨"do:", "Predicate", "0.77 0.88 0.99"⟩,
  ⟨"how::", "Predicate", "1.01 1.12 1.23"⟩,
  ⟨"Car", "Identifier", "0.01 0.02 0.03"⟩,
  ⟨"symbol", "Identifier", "0.04 0.05 0.06"⟩]

end Definition

end Predication
