import Predication.Definition
import Predication.Store.Error
import Predication.Toml.Reader

/-!
Seed files: TOML documents with a list of definitions under the key `symbol`. A definition is a
table with a name, a category and perhaps an embedding, or an array of these in order; all else in
the document is passed over.
-/

namespace Predication.Definition

open Toml (Entries)

def textOf? : Toml → Option String
  | .text s => some s
  | _ => none

def ofEntries? (es : Entries) : Option Definition := do
  let name ← textOf? (← es.get? "name")
  let category ← textOf? (← es.get? "category")
  match es.get? "embedding" with
  | none => some ⟨name, category, ""⟩
  | some e => some ⟨name, category, ← textOf? e⟩

def ofItems? : List Toml → Option Definition
  | [.text name, .text category] => some ⟨name, category, ""⟩
  | .text name :: .text category :: .text embedding :: _ => some ⟨name, category, embedding⟩
  | _ => none

def ofToml? : Toml → Option Definition
  | .table _ es => ofEntries? es
  | .array items => ofItems? items
  | _ => none

def ofDocument? (root : Entries) : Option (List Definition) :=
  match root.get? "symbol" with
  | none => some []
  | some (.tables items) => items.mapM ofEntries?
  | some (.array items) => items.mapM ofToml?
  | some _ => none

def readSeed (s : String) (limit : Nat := Toml.depthLimit) :
    Except StoreError (List Definition) :=
  match (Toml.read? s limit).bind ofDocument? with
  | none => .error .seedFormat
  | some ds => .ok ds

end Predication.Definition
