import Predication.Catalog.Access

namespace Predication.Layout

open Sql

def metadataName : String := "metadata"

def keyColumn : String := "key"

def valueColumn : String := "value"

def definitionsName : String := "system_symbols"

def nameColumn : String := "public_name"

def categoryColumn : String := "thing"

def embeddingColumn : String := "embedding_data"

def indexName : String := "idx_symbols_thing"

def metadataDeclaration : String :=
  "CREATE TABLE metadata (key TEXT PRIMARY KEY, value TEXT NOT NULL)"

def definitionsDeclaration : String :=
  "CREATE TABLE system_symbols (public_name TEXT PRIMARY KEY, thing TEXT NOT NULL, " ++
    "embedding_data TEXT)"

def indexDeclaration : String :=
  "CREATE INDEX idx_symbols_thing ON system_symbols(thing)"

def shown : List Expr :=
  [Catalog.column nameColumn, Catalog.column categoryColumn,
    .call "coalesce" [Catalog.column embeddingColumn, .value (.text [])] false false]

def texts? : List Value → Option (String × String × String)
  | [a, b, c] => do return (← a.string?, ← b.string?, ← c.string?)
  | _ => none

def listed? (c : Catalog) : Option (List (String × String × String)) := do
  (← c.select? (Catalog.selection shown definitionsName none
    [(Catalog.column "rowid", false)])).mapM texts?

def found? (c : Catalog) (name : String) : Option (Option (String × String × String)) := do
  match ← c.lookup? definitionsName nameColumn name shown with
  | none => return none
  | some values => return some (← texts? values)

def entry? (c : Catalog) (key : String) : Option (Option String) := do
  match ← c.lookup? metadataName keyColumn key [Catalog.column valueColumn] with
  | none => return none
  | some values => return some (← (values.headD .null).string?)

def entryCells (key value : String) : List (String × String) :=
  [(keyColumn, key), (valueColumn, value)]

def cells (name category embedding : String) : List (String × String) :=
  [(nameColumn, name), (categoryColumn, category), (embeddingColumn, embedding)]

def hasTable (c : Catalog) (name : String) : Bool :=
  c.has .table name || c.has .view name

def isComplete (c : Catalog) : Bool :=
  hasTable c metadataName && c.has .table definitionsName && c.has .index indexName

end Predication.Layout
