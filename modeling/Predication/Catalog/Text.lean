import Predication.Catalog
import Predication.Json.Printer
import Predication.Json.Reader

namespace Predication.Catalog

open Json (quoted arrayOf)
open Sql (Value)

def nullText : List Char := "null".toList

def truthText (b : Bool) : List Char := (if b then "true" else "false").toList

def natText (n : Nat) : List Char := (Text.natText n).toList

def bytesText (bytes : Sql.Bytes) : List Char :=
  arrayOf (bytes.map fun b => natText b.toNat)

def valueText : Value → List Char
  | .null => nullText
  | .integer n => quoted (Text.intText n)
  | .real bits => arrayOf [quoted "real", natText bits.toNat]
  | .text bytes => arrayOf [quoted "text", bytesText bytes]
  | .blob bytes => arrayOf [quoted "blob", bytesText bytes]

def valuesText (vs : List Value) : List Char :=
  arrayOf (vs.map valueText)

def storedText (s : Stored) : List Char :=
  arrayOf (s.map fun (a, b) => arrayOf [valuesText a, valuesText b])

def kindText : ItemKind → String
  | .table => "table"
  | .index => "index"
  | .view => "view"
  | .trigger => "trigger"

def itemText (i : Item) : List Char :=
  arrayOf [quoted (kindText i.kind), quoted i.name, quoted i.table,
    match i.sql with
    | some sql => quoted sql
    | none => nullText,
    match i.stored with
    | some s => storedText s
    | none => nullText]

def text (c : Catalog) : List Char :=
  arrayOf [truthText c.canGrow, arrayOf (c.items.map itemText)]

def optionOfJson? {α : Type} (f : Json → Option α) : Json → Option (Option α)
  | .null => some none
  | other => (f other).map some

def listOfJson? {α : Type} (f : Json → Option α) : Json → Option (List α)
  | .array items => items.mapM f
  | _ => none

def bytesOfJson? : Json → Option Sql.Bytes :=
  listOfJson? fun j => j.number?.map UInt8.ofNat

def valueOfJson? : Json → Option Value
  | .null => some .null
  | .text (some n) => (Text.readInt? n.toList).map .integer
  | .array [.text (some kind), content] =>
      match kind with
      | "real" => content.number?.map fun n => .real (UInt64.ofNat n)
      | "text" => (bytesOfJson? content).map .text
      | "blob" => (bytesOfJson? content).map .blob
      | _ => none
  | _ => none

def pairOfJson? : Json → Option (List Value × List Value)
  | .array [a, b] => do return (← listOfJson? valueOfJson? a, ← listOfJson? valueOfJson? b)
  | _ => none

def kindOfText? : String → Option ItemKind
  | "table" => some .table
  | "index" => some .index
  | "view" => some .view
  | "trigger" => some .trigger
  | _ => none

def itemOfJson? : Json → Option Item
  | .array [kind, name, table, sql, stored] => do
      return {
        kind := ← kindOfText? (← kind.text?)
        name := ← name.text?
        table := ← table.text?
        sql := ← optionOfJson? Json.text? sql
        stored := ← optionOfJson? (listOfJson? pairOfJson?) stored }
  | _ => none

def ofJson? : Json → Option Catalog
  | .array [.truth canGrow, items] =>
      (listOfJson? itemOfJson? items).map fun is => { items := is, canGrow := canGrow }
  | _ => none

end Predication.Catalog
