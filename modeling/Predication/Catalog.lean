import Predication.Sql.Declaration

namespace Predication

open Sql (Value)

/-- What is stored for a table: the rows by their identity, which is the number of a row or, in a
table without numbers, its primary key. For an index: keys, each with the identity of its row. -/
abbrev Stored := List (List Value × List Value)

inductive ItemKind where
  | table
  | index
  | view
  | trigger
  deriving DecidableEq

/-- A declared item. An index that belongs to a constraint has no text of its own. What is stored
can be unreadable. -/
structure Item where
  kind : ItemKind
  name : String
  table : String
  sql : Option String := none
  stored : Option Stored := some []
  deriving DecidableEq

/-- The items in the order in which they were made. A catalog that cannot grow has no room for
further tables. -/
structure Catalog where
  items : List Item := []
  canGrow : Bool := true
  deriving DecidableEq

namespace Catalog

/-- Tables, indexes and views have one space of names; that of triggers is apart. -/
def item? (c : Catalog) (kind : ItemKind) (name : String) : Option Item :=
  c.items.find? fun i => i.kind == kind && i.name == name

def has (c : Catalog) (kind : ItemKind) (name : String) : Bool :=
  (c.item? kind name).isSome

def stored? (c : Catalog) (kind : ItemKind) (name : String) : Option Stored :=
  (c.item? kind name).bind Item.stored

def putStored (c : Catalog) (kind : ItemKind) (name : String) (s : Stored) : Catalog :=
  { c with items := c.items.map fun i =>
      if i.kind = kind ∧ i.name = name then { i with stored := some s } else i }

def add (c : Catalog) (i : Item) : Catalog :=
  { c with items := c.items ++ [i] }

end Catalog

end Predication
