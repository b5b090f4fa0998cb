import Predication.Catalog
import Predication.Text.Decimal

namespace Predication.Catalog

open Sql

/-- A column. A strict table checks the type of a value; the width is an estimate of what a value
takes. -/
structure Column where
  name : String
  type : String
  affinity : Affinity
  collation : Collation
  notNull : Option Conflict
  default : Option Expr
  generated : Option (Expr × Bool)

structure KeyPart where
  expr : Expr
  column : Option Nat
  collation : Collation
  descending : Bool

/-- An index holds the rows that meet its condition. One that is unique says what to do about
conflicts, if its declaration says so. The primary index of a table without numbers is the table. -/
structure Index where
  name : String
  parts : List KeyPart
  condition : Option Expr := none
  unique : Bool
  conflict : Option Conflict := none
  isPrimary : Bool := false

structure ForeignKey where
  columns : List Nat
  target : Reference

/-- A table. Its rows have numbers, which a column can show, or else a primary key. The indexes and
the triggers that were made last come first. -/
structure Table where
  name : String
  columns : List Column
  numberColumn : Option Nat := none
  numberConflict : Option Conflict := none
  autoincrement : Bool := false
  withoutNumbers : Bool := false
  strict : Bool := false
  checks : List Expr := []
  foreignKeys : List ForeignKey := []
  indexes : List Index := []
  triggers : List TriggerDeclaration := []

structure View where
  name : String
  columns : Option (List String)
  query : Option Query
  triggers : List TriggerDeclaration := []

structure Schema where
  tables : List Table := []
  views : List View := []
  modules : List String := []

namespace Table

def column? (t : Table) (name : String) : Option Nat :=
  t.columns.findIdx? fun c => c.name == name

def numberNames : List String :=
  ["rowid", "_rowid_", "oid"]

def primaryIndex? (t : Table) : Option Index :=
  t.indexes.find? Index.isPrimary

def sideIndexes (t : Table) : List Index :=
  t.indexes.filter fun x => !(t.withoutNumbers && x.isPrimary)

def hasGenerated (t : Table) : Bool :=
  t.columns.any fun c => c.generated.isSome

end Table

def firstNumber (s : List Char) : Nat :=
  Text.digitsValue ((s.dropWhile fun c => !Text.isDigit c).takeWhile Text.isDigit)

def behind (text word : String) : List Char :=
  ((text.splitOn word).getLastD "").toList

def width (type : String) : Nat :=
  let t := type.toLower
  let sized (n : Nat) : Nat := min 255 (n / 4 + 1)
  if t.isEmpty then 1
  else
    match Affinity.ofType t with
    | .text => if containsText t "char" then sized (firstNumber (behind t "char")) else 5
    | .none => if containsText t "blob(" then sized (firstNumber (behind t "blob")) else 5
    | _ => 1

def roughLog (n : Nat) : Nat :=
  let halvings := n.log2 - 3
  if n < 8 then [0, 0, 10, 16, 20, 23, 26, 28].getD n 0
  else 10 * (halvings + 3) + [0, 2, 3, 5, 6, 7, 8, 9].getD (n / Nat.pow 2 halvings % 8) 0

def strictTypes : List String :=
  ["int", "integer", "real", "text", "blob", "any"]

def Column.ofDeclaration (strict : Bool) (d : ColumnDeclaration) : Column where
  name := d.name
  type := d.type.toLower
  affinity := if strict && d.type.toLower == "any" then .none else Affinity.ofType d.type
  collation := (d.collation.bind Collation.ofName?).getD .binary
  notNull := d.notNull
  default := d.default
  generated := d.generated

def KeyPart.ofPart? (columns : List Column) (p : Part) : Option KeyPart :=
  let given := p.collation.bind Collation.ofName?
  match p.expr with
  | .column none name double =>
      match columns.findIdx? (fun c => c.name == name.toLower) with
      | some i =>
          let own := (columns[i]?.map Column.collation).getD .binary
          some ⟨.column none name.toLower false, some i, given.getD own, p.descending⟩
      | none => if double then some ⟨.value (.ofString name), none, .binary, p.descending⟩ else none
  | e => some ⟨e, none, given.getD .binary, p.descending⟩

def KeyPart.same (p q : KeyPart) : Bool :=
  p.column == q.column && p.collation == q.collation

def sameParts (ps qs : List KeyPart) : Bool :=
  ps.length == qs.length && (ps.zip qs).all fun (p, q) => p.same q

def automaticName (table : String) (n : Nat) : String :=
  "sqlite_autoindex_" ++ table ++ "_" ++ Text.natText n

/-- Puts an index in front of the others, behind which those come that replace rows. -/
def placeIndex (x : Index) (xs : List Index) : List Index :=
  if x.conflict = some .replace then
    xs.takeWhile (fun y => y.conflict != some .replace) ++ x ::
      xs.dropWhile (fun y => y.conflict != some .replace)
  else x :: xs

namespace Table

def addKey (t : Table) (parts : List KeyPart) (conflict : Option Conflict) (primary : Bool) :
    Table :=
  if t.indexes.any fun x => sameParts x.parts parts then
    { t with indexes := t.indexes.map fun x =>
        if sameParts x.parts parts then
          { x with conflict := x.conflict.or conflict, isPrimary := x.isPrimary || primary }
        else x }
  else
    let x : Index := {
      name := automaticName t.name (t.indexes.length + 1), parts := parts, unique := true
      conflict := conflict, isPrimary := primary }
    { t with indexes := placeIndex x t.indexes }

def numberColumnOf? (t : Table) (parts : List Part) : Option Nat :=
  match parts with
  | [⟨.column none name _, _, false⟩] =>
      (t.column? name.toLower).filter fun i => (t.columns[i]?.map Column.type) == some "integer"
  | _ => none

def parts? (t : Table) (parts : List Part) : Option (List KeyPart) :=
  parts.mapM (KeyPart.ofPart? t.columns)

def constrain? (t : Table) : Constraint → Option Table
  | .primaryKey parts conflict autoincrement =>
      match t.numberColumnOf? parts with
      | some i =>
          some { t with
            numberColumn := some i, numberConflict := conflict, autoincrement := autoincrement }
      | none =>
          if autoincrement then none
          else (t.parts? parts).map fun ps => t.addKey ps conflict true
  | .unique parts conflict => (t.parts? parts).map fun ps => t.addKey ps conflict false
  | .check e => some { t with checks := t.checks ++ [e] }
  | .foreignKey columns target =>
      (columns.mapM t.column?).bind fun is =>
        if target.columns.isEmpty || target.columns.length == is.length then
          some { t with foreignKeys := t.foreignKeys ++ [⟨is, target⟩] }
        else none

/-- Takes the numbers of the rows away; the primary key takes their place, and none of its columns
can be empty. -/
def withoutNumbers? (t : Table) : Option Table := do
  guard (!t.autoincrement)
  let t := match t.numberColumn with
    | none => t
    | some i =>
        let part : KeyPart :=
          ⟨.column none ((t.columns[i]?.map Column.name).getD "") false, some i,
            (t.columns[i]?.map Column.collation).getD .binary, false⟩
        { t.addKey [part] t.numberConflict true with numberColumn := none }
  let key ← t.primaryIndex?
  let isKey (i : Nat) : Bool := key.parts.any fun p => p.column == some i
  return { t with
    withoutNumbers := true
    columns := t.columns.mapIdx fun i c =>
      if isKey i then { c with notNull := some (c.notNull.getD .abort) } else c }

def primaryCount (cs : List Constraint) : Nat :=
  cs.countP fun
    | .primaryKey _ _ _ => true
    | _ => false

def ofDeclaration? (d : TableDeclaration) : Option Table := do
  let columns := d.columns.map (Column.ofDeclaration d.strict)
  guard (columns.map Column.name).Nodup
  guard (!d.strict || columns.all fun c => strictTypes.contains c.type)
  guard (primaryCount d.constraints ≤ 1)
  let t ← d.constraints.foldlM Table.constrain?
    { name := d.name, columns := columns, strict := d.strict }
  if d.withoutNumbers then t.withoutNumbers? else return t

end Table

namespace Schema

def table? (s : Schema) (name : String) : Option Table :=
  s.tables.find? fun t => t.name == name

def view? (s : Schema) (name : String) : Option View :=
  s.views.find? fun v => v.name == name

def isTaken (s : Schema) (name : String) : Bool :=
  (s.table? name).isSome || (s.view? name).isSome || s.modules.contains name

def putTable (s : Schema) (t : Table) : Schema :=
  { s with tables := s.tables.map fun u => if u.name = t.name then t else u }

def indexOf? (s : Schema) (name : String) : Option (Table × Index) :=
  s.tables.findSome? fun t => (t.indexes.find? fun x => x.name == name).map fun x => (t, x)

def addIndex? (s : Schema) (d : IndexDeclaration) : Option Schema := do
  guard (s.indexOf? d.name).isNone
  let t ← s.table? d.table
  let x : Index := {
    name := d.name, parts := ← t.parts? d.parts, condition := d.condition, unique := d.unique }
  return s.putTable { t with indexes := placeIndex x t.indexes }

def addTrigger? (s : Schema) (d : TriggerDeclaration) : Option Schema :=
  match s.table? d.table, s.view? d.table with
  | some t, _ => some (s.putTable { t with triggers := d :: t.triggers })
  | none, some v =>
      some { s with views := s.views.map fun u =>
        if u.name = v.name then { v with triggers := d :: v.triggers } else u }
  | none, none => none

/-- Takes the declaration of an item into account. A table, or an index, must be understood; a view
that is not understood has no query, and a trigger that is not understood does nothing. -/
def declare? (s : Schema) (i : Item) : Option Schema :=
  match i.kind, i.sql.map Declaration.read? with
  | .table, some (some (.table d)) =>
      if s.isTaken d.name then none
      else (Table.ofDeclaration? d).map fun t => { s with tables := s.tables ++ [t] }
  | .table, some (some (.module name)) => some { s with modules := name :: s.modules }
  | .index, some (some (.index d)) => s.addIndex? d
  | .index, none => (s.indexOf? i.name).map fun _ => s
  | .view, some (some (.view d)) =>
      if s.isTaken d.name then none
      else some { s with views := s.views ++ [⟨d.name, d.columns, some d.query, []⟩] }
  | .view, some none => some { s with views := s.views ++ [⟨i.name, none, none, []⟩] }
  | .trigger, some (some (.trigger d)) => s.addTrigger? d
  | .trigger, some none => some s
  | _, _ => none

end Schema

def schema? (c : Catalog) : Option Schema :=
  c.items.foldlM Schema.declare? {}

end Predication.Catalog
