import Predication.Database.Layout
import Predication.Definition
import Predication.KeyMap
import Predication.Store.Error

/-!
The database that holds a store: a table of metadata and a table of definitions, each of which may
be missing. A row of definitions carries a row number; a written row gets one more than the
largest number in the table, so row numbers give the order of the last writes as long as they last.
After the largest number that there is, the engine draws one at random from the lower half.
-/

namespace Predication

/-- Row numbers are positive integers of 64 bits with a sign; zero is below all that are given. -/
abbrev RowNumber := Fin 0x8000000000000000

def RowNumber.greatest : Nat := 0x7fffffffffffffff

def RowNumber.ofNat? (n : Nat) : Option RowNumber :=
  if h : n < 0x8000000000000000 then some ⟨n, h⟩ else none

/-- What the engine draws when the largest number is taken. -/
abbrev Draw := Fin 0x4000000000000000

def Draw.number (d : Draw) : RowNumber :=
  ⟨d.val + 1, by omega⟩

/-- A row of definitions; a row that was inserted without an embedding has none. -/
structure Row where
  number : RowNumber
  name : String
  category : String
  embedding : Option String
  deriving DecidableEq

def Row.definition (r : Row) : Definition :=
  ⟨r.name, r.category, r.embedding.getD ""⟩

/-- The draws are those that the engine will make from here on, should it come to that; they are in
no file. Behind the last of them it draws one number after the other. -/
structure DefinitionTable where
  rows : List Row := []
  categoryIndex : Bool := false
  draws : List Draw := []
  deriving DecidableEq

namespace DefinitionTable

def last (t : DefinitionTable) : Nat :=
  t.rows.foldl (fun n r => max n r.number.val) 0

def isFree (t : DefinitionTable) (d : Draw) : Bool :=
  t.rows.all fun r => r.number != d.number

/-- The first number drawn that no row has. The engine gives up after a hundred draws; it is taken
to find one before. -/
def drawn (t : DefinitionTable) : RowNumber :=
  let draws := t.draws ++ (List.range (t.rows.length + 1)).map (Fin.ofNat _)
  ((draws.find? t.isFree).getD 0).number

def nextNumber (t : DefinitionTable) : RowNumber :=
  if h : t.last < RowNumber.greatest then ⟨t.last + 1, Nat.succ_lt_succ h⟩ else t.drawn

def restOfDraws (t : DefinitionTable) : List Draw :=
  if t.last < RowNumber.greatest then t.draws
  else (t.draws.dropWhile fun d => !t.isFree d).tail

def erase (t : DefinitionTable) (name : String) : DefinitionTable :=
  { t with rows := t.rows.filter (fun r => r.name != name) }

def append (t : DefinitionTable) (name category : String) (embedding : Option String) :
    DefinitionTable :=
  { t with
    rows := t.rows ++ [⟨t.nextNumber, name, category, embedding⟩]
    draws := t.restOfDraws }

/-- Replaces the row of the name, if there is one, by a new row. The new one gets its number while
the old one is still there. -/
def put (t : DefinitionTable) (d : Definition) : DefinitionTable :=
  { t.erase d.name with
    rows := (t.erase d.name).rows ++ [⟨t.nextNumber, d.name, d.category, some d.embedding⟩]
    draws := t.restOfDraws }

def find? (t : DefinitionTable) (name : String) : Option Row :=
  t.rows.find? (fun r => r.name == name)

def ordered (t : DefinitionTable) : List Row :=
  t.rows.mergeSort (fun a b => a.number ≤ b.number)

end DefinitionTable

/-- A database that was made elsewhere and has another layout is a catalog, which is there instead
of the tables. -/
structure Database where
  metadata : Option (KeyMap String String) := none
  definitions : Option DefinitionTable := none
  foreign : Option Catalog := none
  deriving DecidableEq

namespace Database

def blank : Database := {}

def ofCatalog (c : Catalog) : Database :=
  { foreign := some c }

def answer {α : Type} (a : Option α) : Except StoreError α :=
  match a with
  | some a => .ok a
  | none => .error .engine

def outcome {α : Type} (o : Catalog.Outcome α) : Except StoreError (α × Database) :=
  match o with
  | .ok (a, c) => .ok (a, ofCatalog c)
  | .error _ => .error .engine

def changed (o : Catalog.Outcome Unit) : Except StoreError Database :=
  (outcome o).map Prod.snd

def kept {α : Type} (o : Catalog.Outcome α) : Option Database :=
  match o with
  | .ok _ => none
  | .error r => r.kept.map ofCatalog

def metadataTable (db : Database) : Except StoreError (KeyMap String String) :=
  match db.metadata with
  | some m => .ok m
  | none => .error .engine

def definitionTable (db : Database) : Except StoreError DefinitionTable :=
  match db.definitions with
  | some t => .ok t
  | none => .error .engine

def getMetadata (db : Database) (key : String) : Except StoreError (Option String) :=
  match db.foreign with
  | some c => answer (Layout.entry? c key)
  | none => db.metadataTable.map fun m => m.get? key

def setEntry (c : Catalog) (key value : String) : Catalog.Outcome Unit :=
  c.put Layout.metadataName (Layout.entryCells key value) .replace

def setMetadata (db : Database) (key value : String) : Except StoreError Database :=
  match db.foreign with
  | some c => changed (setEntry c key value)
  | none => db.metadataTable.map fun m => { db with metadata := some (m.insert key value) }

/-- What is left of a database when an entry could not be written, if that is not what was there. -/
def keptBySet (db : Database) (key value : String) : Option Database :=
  db.foreign.bind fun c => kept (setEntry c key value)

def deleteMetadata (db : Database) (key : String) : Except StoreError (Nat × Database) :=
  match db.foreign with
  | some c => outcome (c.delete Layout.metadataName Layout.keyColumn key)
  | none =>
      db.metadataTable.map fun m =>
        (if m.contains key then 1 else 0, { db with metadata := some (m.erase key) })

def definitionOf (found : String × String × String) : Definition :=
  ⟨found.1, found.2.1, found.2.2⟩

def listDefinitions (db : Database) : Except StoreError (List Definition) :=
  match db.foreign with
  | some c => answer ((Layout.listed? c).map fun found => found.map definitionOf)
  | none => db.definitionTable.map fun t => t.ordered.map Row.definition

def definition? (db : Database) (name : String) : Except StoreError (Option Definition) :=
  match db.foreign with
  | some c => answer ((Layout.found? c name).map fun found => found.map definitionOf)
  | none => db.definitionTable.map fun t => (t.find? name).map Row.definition

def rowCount (db : Database) : Except StoreError Nat :=
  match db.foreign with
  | some c => answer (c.count? Layout.definitionsName)
  | none => db.definitionTable.map fun t => t.rows.length

def cellsOf (d : Definition) : List (String × String) :=
  Layout.cells d.name d.category d.embedding

def putCells (c : Catalog) (d : Definition) : Catalog.Outcome Unit :=
  c.put Layout.definitionsName (cellsOf d) .replace

/-- Inserts or replaces a definition. The empty name is refused before the table is looked at. -/
def put (db : Database) (d : Definition) : Except StoreError Database :=
  if d.name.isEmpty then .error (.invalid .emptyName)
  else
    match db.foreign with
    | some c => changed (putCells c d)
    | none => db.definitionTable.map fun t => { db with definitions := some (t.put d) }

def keptByPut (db : Database) (d : Definition) : Option Database :=
  if d.name.isEmpty then none else db.foreign.bind fun c => kept (putCells c d)

def putEach (db : Database) : List Definition → Except StoreError Database
  | [] => .ok db
  | d :: ds =>
      match db.put d with
      | .error e => .error e
      | .ok db => putEach db ds

def putAll (db : Database) (ds : List Definition) : Except StoreError Database :=
  match db.foreign with
  | some c =>
      match ds.find? fun d => d.name.isEmpty with
      | none => changed (c.putAll Layout.definitionsName (ds.map cellsOf) .replace)
      | some _ =>
          let before := ds.takeWhile fun d => !d.name.isEmpty
          match c.putAll Layout.definitionsName (before.map cellsOf) .replace with
          | .ok _ => .error (.invalid .emptyName)
          | .error _ => .error .engine
  | none => db.putEach ds

def insertBare (db : Database) (name category : String) : Except StoreError Database :=
  match db.foreign with
  | some c =>
      changed (c.put Layout.definitionsName
        [(Layout.nameColumn, name), (Layout.categoryColumn, category)] .abort)
  | none =>
      match db.definitionTable with
      | .error e => .error e
      | .ok t =>
          match t.find? name with
          | some _ => .error .engine
          | none => .ok { db with definitions := some (t.append name category none) }

def deleteCells (c : Catalog) (name : String) : Catalog.Outcome Nat :=
  c.delete Layout.definitionsName Layout.nameColumn name

def delete (db : Database) (name : String) : Except StoreError (Bool × Database) :=
  match db.foreign with
  | some c => (outcome (deleteCells c name)).map fun (n, db) => (n != 0, db)
  | none =>
      db.definitionTable.map fun t =>
        ((t.find? name).isSome, { db with definitions := some (t.erase name) })

def keptByDelete (db : Database) (name : String) : Option Database :=
  db.foreign.bind fun c => kept (deleteCells c name)

def createMetadata (db : Database) : Except StoreError Database :=
  match db.foreign with
  | some c => changed (c.createTable Layout.metadataName Layout.metadataDeclaration)
  | none => .ok { db with metadata := some (db.metadata.getD []) }

def createDefinitions (db : Database) : Except StoreError Database :=
  match db.foreign with
  | some c => changed (c.createTable Layout.definitionsName Layout.definitionsDeclaration)
  | none => .ok { db with definitions := some (db.definitions.getD {}) }

def createCategoryIndex (db : Database) : Except StoreError Database :=
  match db.foreign with
  | some c =>
      changed (c.createIndex Layout.indexName Layout.definitionsName Layout.categoryColumn
        Layout.indexDeclaration)
  | none =>
      db.definitionTable.map fun t =>
        { db with definitions := some { t with categoryIndex := true } }

def isComplete (db : Database) : Bool :=
  match db.foreign with
  | some c => Layout.isComplete c
  | none => db.metadata.isSome && db.definitions.any DefinitionTable.categoryIndex

def dropMetadata (db : Database) : Except StoreError Database :=
  match db.foreign with
  | some c => changed (c.drop Layout.metadataName)
  | none => db.metadataTable.map fun _ => { db with metadata := none }

def dropDefinitions (db : Database) : Except StoreError Database :=
  match db.foreign with
  | some c => changed (c.drop Layout.definitionsName)
  | none => db.definitionTable.map fun _ => { db with definitions := none }

theorem putAll_eq_putEach (db : Database) (ds : List Definition) (h : db.foreign = none) :
    db.putAll ds = db.putEach ds := by
  simp [putAll, h]

end Database

end Predication
