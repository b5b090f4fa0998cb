import Predication.Database
import Predication.Database.Image.Record

/-!
Database files: a header, then pages. The table that starts on the first page lists the items of the
catalog. A file of the layout of a store is read as its tables, and any other one as a catalog.
-/

namespace Predication.Image

open Sql (Value)

def magic : List UInt8 :=
  "SQLite format 3".toUTF8.toList ++ [0]

structure Entry where
  item : Item
  root : Nat

/-- The page size in the header: a power of two from 512 to 65536, the last of which is written
as 1. -/
def pageSize? (bytes : ByteArray) : Option Nat := do
  let n ← number? bytes 16 2
  let size := if n = 1 then 65536 else n
  if 512 ≤ size ∧ size.isPowerOfTwo then some size else none

def encoding? (bytes : ByteArray) : Option Encoding := do
  match (← number? bytes 56 4) % 4 with
  | 2 => some .utf16LittleEndian
  | 3 => some .utf16BigEndian
  | _ => some .utf8

/-- The count of pages in the header, if it was written together with the rest of the file, else
the count that the file has room for. A file that is too short is refused. -/
def pageCount? (bytes : ByteArray) (pageSize : Nat) : Option Nat := do
  let room := (bytes.size + pageSize - 1) / pageSize
  let written ← number? bytes 28 4
  let count :=
    if written = 0 ∨ number? bytes 24 4 ≠ number? bytes 92 4 then room else written
  if count ≤ room then some count else none

def hasMagic (bytes : ByteArray) : Bool :=
  (bytes.extract 0 16).toList == magic

def PagedFile.read? (bytes : ByteArray) : Option PagedFile := do
  guard (hasMagic bytes)
  guard ((bytes.extract 21 24).toList = [64, 32, 32])
  guard ((← byteAt? bytes 18) ≤ 2 ∧ (← byteAt? bytes 19) ≤ 2)
  guard ((← number? bytes 44 4) ≤ 4)
  let pageSize ← pageSize? bytes
  let usable := pageSize - (← byteAt? bytes 20)
  guard (480 ≤ usable)
  return ⟨bytes, pageSize, usable, ← pageCount? bytes pageSize, ← encoding? bytes⟩

def kind? : String → Option ItemKind
  | "table" => some .table
  | "index" => some .index
  | "view" => some .view
  | "trigger" => some .trigger
  | _ => none

def listed? (fields : List Value) : Option Entry :=
  match fields with
  | [kind, name, table, root, sql] => do
      let root : Int ← match root with
        | .integer n => some n
        | _ => none
      let sql ← match sql with
        | .null => some none
        | sql => sql.string?.map some
      let item : Item := {
        kind := ← kind? (← kind.string?)
        name := (← name.string?).toLower
        table := (← table.string?).toLower
        sql := sql }
      return ⟨item, root.toNat⟩
  | _ => none

def PagedFile.entries (f : PagedFile) : Option (List Entry) := do
  (← f.table? 1).mapM fun row => do listed? (← fields? f.encoding row.record)

def PagedFile.hasRoots (f : PagedFile) (es : List Entry) : Bool :=
  es.all fun e =>
    match e.item.kind with
    | .table => e.root ≤ f.pageCount
    | .index => 2 ≤ e.root && e.root ≤ f.pageCount
    | _ => true

/-- What a column makes of a stored value: a real number can be stored as a whole one. -/
def restored (c : Catalog.Column) (v : Value) : Value :=
  match c.affinity, v with
  | .real, .integer n => .real (Sql.realOfInt n)
  | _, v => v

def missing (c : Catalog.Column) : Value :=
  match c.default with
  | none => .null
  | some e =>
      match Catalog.eval ⟨{}, {}⟩ Catalog.depth [] none e with
      | .ok v => c.affinity.apply v
      | .error _ => .null

def storedColumns (t : Catalog.Table) : List Nat :=
  (List.range t.columns.length).filter fun i =>
    match t.columns[i]?.bind Catalog.Column.generated with
    | some (_, stored) => stored
    | none => true

def keyColumns (t : Catalog.Table) : List Nat :=
  (((t.primaryIndex?.map Catalog.Index.parts).getD []).filterMap Catalog.KeyPart.column).eraseDups

/-- The order of the columns in a record: in a table without numbers, the key comes first. -/
def recordColumns (t : Catalog.Table) : List Nat :=
  let stored := storedColumns t
  if t.withoutNumbers then
    let key := keyColumns t
    key ++ stored.filter fun i => !key.contains i
  else stored

def rowValues (t : Catalog.Table) (fields : List Value) : List Value :=
  let places := recordColumns t
  t.columns.mapIdx fun i c =>
    match places.idxOf? i with
    | none => .null
    | some j =>
        match fields[j]? with
        | some v => restored c v
        | none => missing c

def PagedFile.tableRows? (f : PagedFile) (t : Catalog.Table) (root : Nat) : Option Stored := do
  if t.withoutNumbers then
    (← f.index? root).mapM fun record => do
      let values := rowValues t (← fields? f.encoding record)
      return (t.idOf 0 values, values)
  else
    (← f.table? root).mapM fun row => do
      let values := rowValues t (← fields? f.encoding row.record)
      return ([.integer row.number], Catalog.shownNumber t row.number values)

/-- The key and the identity of a row in an entry of an index. The columns of a primary key that are
in the key of the index are not repeated behind it. -/
def indexEntry (t : Catalog.Table) (x : Catalog.Index) (fields : List Value) :
    List Value × List Value :=
  let width := x.parts.length
  let key := fields.take width
  if t.withoutNumbers then
    let parts := (t.primaryIndex?.map Catalog.Index.parts).getD []
    let extra := parts.filter fun p => !x.parts.any p.same
    let id := parts.map fun p =>
      match x.parts.findIdx? p.same, extra.findIdx? p.same with
      | some j, _ => key.getD j .null
      | none, some j => fields.getD (width + j) .null
      | none, none => .null
    (key, id)
  else (key, [fields.getD width .null])

def PagedFile.indexEntries? (f : PagedFile) (t : Catalog.Table) (x : Catalog.Index) (root : Nat) :
    Option Stored := do
  (← f.index? root).mapM fun record => do
    return indexEntry t x (← fields? f.encoding record)

def PagedFile.stored? (f : PagedFile) (s : Catalog.Schema) (e : Entry) : Option Stored :=
  match e.item.kind with
  | .table =>
      match s.table? e.item.name with
      | some t => f.tableRows? t e.root
      | none => some []
  | .index => do
      let (t, x) ← s.indexOf? e.item.name
      f.indexEntries? t x e.root
  | _ => some []

/-- Whether new pages can be taken: from the list of free ones, which must make sense, or behind the
others. -/
def PagedFile.canGrow (f : PagedFile) : Bool :=
  match number? f.bytes 32 4, number? f.bytes 36 4 with
  | some first, some free =>
      free == 0 || (free < f.pageCount && 2 ≤ first && first ≤ f.pageCount)
  | _, _ => false

def PagedFile.catalog? (f : PagedFile) : Option Catalog := do
  let es ← f.entries
  guard (f.hasRoots es)
  let s ← Catalog.schema? { items := es.map Entry.item }
  return {
    items := es.map fun e => { e.item with stored := f.stored? s e }
    canGrow := f.canGrow }

def sameDeclaration (a : Option String) (b : String) : Bool :=
  match a.bind Sql.tokenize?, Sql.tokenize? b with
  | some ts, some us => ts == us
  | _, _ => false

def isOwn (c : Catalog) : Bool :=
  c.canGrow && c.items.all fun i =>
    match i.kind with
    | .table =>
        (i.name == Layout.metadataName && sameDeclaration i.sql Layout.metadataDeclaration) ||
          (i.name == Layout.definitionsName && sameDeclaration i.sql Layout.definitionsDeclaration)
    | .index =>
        i.sql.isNone ||
          (i.name == Layout.indexName && sameDeclaration i.sql Layout.indexDeclaration)
    | _ => false

def isIndexed (c : Catalog) (rows : Stored) (index : String) (i : Nat) : Bool :=
  match c.stored? .index index with
  | none => false
  | some entries =>
      entries.length == rows.length &&
        rows.all fun (id, values) => entries.contains ([values.getD i .null], id)

def metadata? (c : Catalog) : Option (KeyMap String String) := do
  let rows ← c.stored? .table Layout.metadataName
  guard (isIndexed c rows (Catalog.automaticName Layout.metadataName 1) 0)
  rows.foldlM (fun (m : KeyMap String String) (_, values) => do
    let key ← (values.getD 0 .null).string?
    let value ← (values.getD 1 .null).string?
    guard (!m.contains key)
    return m.insert key value) []

def row? (id values : List Value) : Option Row :=
  match id, values with
  | [.integer n], [name, category, embedding] => do
      guard (1 ≤ n)
      let number ← RowNumber.ofNat? n.toNat
      let embedding ← match embedding with
        | .null => some none
        | e => e.string?.map some
      return ⟨number, ← name.string?, ← category.string?, embedding⟩
  | _, _ => none

def definitions? (c : Catalog) : Option DefinitionTable := do
  let stored ← c.stored? .table Layout.definitionsName
  guard (isIndexed c stored (Catalog.automaticName Layout.definitionsName 1) 0)
  let indexed := c.has .index Layout.indexName
  guard (!indexed || isIndexed c stored Layout.indexName 1)
  let rows ← stored.mapM fun (id, values) => row? id values
  guard (rows.map Row.name).Nodup
  return { rows := rows, categoryIndex := indexed }

def own? (c : Catalog) : Option Database := do
  guard (isOwn c)
  let metadata ←
    if c.has .table Layout.metadataName then (metadata? c).map some else some none
  let definitions ←
    if c.has .table Layout.definitionsName then (definitions? c).map some else some none
  return { metadata := metadata, definitions := definitions }

def read? (bytes : ByteArray) : Option Database := do
  let c ← (← PagedFile.read? bytes).catalog?
  return (own? c).getD (.ofCatalog c)

def isLogged (bytes : ByteArray) : Bool :=
  byteAt? bytes 19 == some 2

end Predication.Image
