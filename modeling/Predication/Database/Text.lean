import Predication.Catalog.Text
import Predication.Database
import Predication.Json.Printer
import Predication.Json.Reader

namespace Predication

open Json (quoted arrayOf commas)
open Catalog (nullText truthText optionOfJson?)

def Row.text (r : Row) : List Char :=
  arrayOf [(Text.natText r.number.val).toList, quoted r.name, quoted r.category,
    match r.embedding with
    | some e => quoted e
    | none => nullText]

def DefinitionTable.text (t : DefinitionTable) : List Char :=
  arrayOf [truthText t.categoryIndex, arrayOf (t.rows.map Row.text)]

def entryText (entry : String × String) : List Char :=
  arrayOf [quoted entry.1, quoted entry.2]

def Database.text (db : Database) : String :=
  String.ofList (arrayOf [
    match db.metadata with
    | some m => arrayOf (m.map entryText)
    | none => nullText,
    match db.definitions with
    | some t => t.text
    | none => nullText,
    match db.foreign with
    | some c => c.text
    | none => nullText])

def Row.ofJson? : Json → Option Row
  | .array [number, name, category, embedding] => do
      some ⟨← number.number?.bind RowNumber.ofNat?, ← name.text?, ← category.text?,
        ← optionOfJson? Json.text? embedding⟩
  | _ => none

def DefinitionTable.ofJson? : Json → Option DefinitionTable
  | .array [.truth index, .array rows] =>
      (rows.mapM Row.ofJson?).map fun rows => { rows := rows, categoryIndex := index }
  | _ => none

def entryOfJson? : Json → Option (String × String)
  | .array [key, value] => do some (← key.text?, ← value.text?)
  | _ => none

def metadataOfJson? : Json → Option (KeyMap String String)
  | .array entries => entries.mapM entryOfJson?
  | _ => none

def Database.read? (s : String) : Option Database :=
  match Json.read? s with
  | some (.array [metadata, definitions, foreign]) => do
      some ⟨← optionOfJson? metadataOfJson? metadata,
        ← optionOfJson? DefinitionTable.ofJson? definitions,
        ← optionOfJson? Catalog.ofJson? foreign⟩
  | _ => none

end Predication
