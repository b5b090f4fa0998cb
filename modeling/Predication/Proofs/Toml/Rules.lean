import Mathlib.Data.List.Infix
import Predication.Proofs.Toml.Grammar
import Predication.Toml

/-!
What TOML asks of the lines of a document beyond their grammar: a key is given once, a table is
opened once, and nothing is added to a value. The rules are about what paths from the root name, not
about the tables that are stored.
-/

namespace Predication.Toml

inductive Named where
  | value
  | table (kind : TableKind)
  | tables
  deriving DecidableEq

/-- What each path names so far. A path through an array of tables leads into its last one. -/
abbrev Names := List String → Option Named

namespace Names

variable (s : Names)

def root : Names := fun path =>
  if path = [] then some (.table .header) else none

/-- One more name. Tables on the way that have none yet are of the given kind. -/
def add (path : List String) (name : Named) (way : TableKind) : Names := fun q =>
  if q = path then some name
  else if q <+: path ∧ s q = none then some (.table way)
  else s q

def close (path : List String) : Names := fun q =>
  if path <+: q ∧ q ≠ path then none else s q

def Leads (path : List String) : Prop :=
  ∀ q, q <+: path → q ≠ path → s q ≠ some .value

/-- Below their header, dotted keys lead to a table that dotted keys have made. On their way they
may also pass through implied tables and arrays of tables. -/
def Reaches (header path : List String) : Prop :=
  ∀ q, q <+: path → q ≠ [] →
    s (header ++ q) = none ∨ s (header ++ q) = some (.table .dotted) ∨
      q ≠ path ∧ (s (header ++ q) = some (.table .implied) ∨ s (header ++ q) = some .tables)

instance (path : List String) : Decidable (s.Leads path) :=
  decidable_of_iff (∀ q ∈ path.inits, q ≠ path → s q ≠ some .value) (by
    simp only [List.mem_inits, Leads])

instance (header path : List String) : Decidable (s.Reaches header path) :=
  decidable_of_iff (∀ q ∈ path.inits, q ≠ [] →
    s (header ++ q) = none ∨ s (header ++ q) = some (.table .dotted) ∨
      q ≠ path ∧ (s (header ++ q) = some (.table .implied) ∨ s (header ++ q) = some .tables)) (by
    simp only [List.mem_inits, Reaches])

end Names

section Line

variable {α : Type} (s : Names) (header : List String)

/-- Only an implied table is opened where there is one already, and only to an array of tables one
more is added. -/
def Line.Allowed : Line α → Prop
  | .table path => s.Leads path ∧ (s path = none ∨ s path = some (.table .implied))
  | .item path => s.Leads path ∧ (s path = none ∨ s path = some .tables)
  | .pair path _ => s (header ++ path) = none ∧ s.Reaches header path.dropLast

def Line.names : Line α → Names
  | .table path => s.add path (.table .header) .implied
  | .item path => (s.close path).add path .tables .implied
  | .pair path _ => s.add (header ++ path) .value .dotted

instance Line.Allowed.decidable : (line : Line α) → Decidable (line.Allowed s header)
  | .table path => inferInstanceAs (Decidable (s.Leads path ∧ _))
  | .item path => inferInstanceAs (Decidable (s.Leads path ∧ _))
  | .pair path _ => inferInstanceAs (Decidable (_ ∧ s.Reaches header path.dropLast))

end Line

section Valid

variable {α : Type}

def Valid (s : Names) (header : List String) : List (Line α) → Prop
  | [] => True
  | line :: lines =>
      line.Allowed s header ∧ Valid (line.names s header) (line.header header) lines

instance Valid.decidable (s : Names) (header : List String) :
    (lines : List (Line α)) → Decidable (Valid s header lines)
  | [] => inferInstanceAs (Decidable True)
  | line :: lines =>
      have := Valid.decidable (line.names s header) (line.header header) lines
      inferInstanceAs (Decidable (line.Allowed s header ∧ Valid _ _ lines))

end Valid

end Predication.Toml
