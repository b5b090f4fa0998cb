import Predication.Catalog.Preparation

namespace Predication.Catalog

open Sql

structure Refusal where
  kept : Option Catalog := none

abbrev Outcome (α : Type) := Except Refusal (α × Catalog)

def column (name : String) : Expr :=
  .column none name false

def isEqual (name : String) (key : Value) : Expr :=
  .binary .equal (column name) (.value key)

def selection (shown : List Expr) (table : String) (condition : Option Expr)
    (order : List (Expr × Bool)) : Query :=
  .mk (.select false (shown.map fun e => .expr e none) [.table table none .inner none] condition []
    none) [] order none none

def answer? {α : Type} (a : Answer α) : Option α :=
  match a with
  | .ok a => some a
  | .error _ => none

def select? (c : Catalog) (q : Query) : Option (List (List Value)) := do
  let s ← c.schema?
  let _ ← headers? ⟨c, s⟩ depth [] q
  answer? (query ⟨c, s⟩ depth [] q)

/-- The index by which the rows with a value in a column are found: one that is unique and has no
further part goes before others. -/
def Table.indexFor? (t : Table) (i : Nat) : Option Index :=
  let collation := (t.columns[i]?.map Column.collation).getD .binary
  let fits := t.indexes.filter fun x =>
    x.condition.isNone && x.parts.head?.any fun p => p.column == some i && p.collation == collation
  let least (xs : List Index) : Option Index :=
    xs.foldl (fun found x =>
      match found with
      | none => some x
      | some y => if x.parts.length < y.parts.length then some x else some y) none
  (fits.find? fun x => x.unique && x.parts.length == 1).or (least fits)

/-- The rows of a table with a value in a column, as an index lists them or in their own order. An
entry of an index without a row refuses the statement. -/
def found? (context : Context) (t : Table) (i : Nat) (key : Value) : Option Stored := do
  let c ← t.columns[i]?
  let key := aligned (some c.affinity) key .null
  let rows ← context.catalog.stored? .table t.name
  let complete (id values : List Value) : Option (List Value × List Value) := do
    return (id, ← answer? (completed context depth t id values))
  if t.numberColumn = some i then
    (rows.filter fun (id, _) => sameValues id [key]).mapM fun (id, values) => complete id values
  else
    match t.indexFor? i with
    | some x =>
        if t.withoutNumbers && x.isPrimary then
          (← rows.mapM fun (id, values) => complete id values).filterM fun (_, values) =>
            some ((values.getD i .null).compare c.collation key == .eq)
        else
          let entries ← context.catalog.stored? .index x.name
          let fitting := entries.filter fun (k, _) =>
            (k.headD .null).compare c.collation key == .eq
          fitting.mapM fun (_, id) => do complete id (← rowAt? rows id)
    | none =>
        (← rows.mapM fun (id, values) => complete id values).filterM fun (_, values) =>
          some (compareAligned (some c.affinity) c.collation (values.getD i .null) key == .eq)

def lookup? (c : Catalog) (table name : String) (key : String) (shown : List Expr) :
    Option (Option (List Value)) := do
  let s ← c.schema?
  let context : Context := ⟨c, s⟩
  match s.table? table with
  | none =>
      let rows ← c.select? (selection shown table (some (isEqual name (.ofString key))) [])
      return rows.head?
  | some t =>
      guard (shown.all (isResolved context depth [[t.blank t.name]]))
      match (← found? context t (← t.column? name) (.ofString key)).head? with
      | none => return none
      | some (id, values) =>
          return some (← shown.mapM fun e =>
            answer? (eval context depth [[t.frame t.name id values]] none e))

/-- The estimate of the size of a row, and that of an entry of an index. -/
def Table.rowSize (t : Table) : Nat :=
  let sum := (t.columns.map fun c => width c.type).foldl (· + ·) 0
  roughLog (4 * if t.numberColumn.isNone && !t.withoutNumbers then sum + 1 else sum)

def Table.entrySize (t : Table) (x : Index) : Nat :=
  let widthAt (i : Nat) : Nat := (t.columns[i]?.map fun c => width c.type).getD 1
  let own := x.parts.map fun p => (p.column.map widthAt).getD 1
  let suffix :=
    if t.withoutNumbers then
      let key := ((t.primaryIndex?.map Index.parts).getD []).filter fun p =>
        !x.parts.any (KeyPart.same p)
      key.map fun p => (p.column.map widthAt).getD 1
    else [1]
  roughLog (4 * (own ++ suffix).foldl (· + ·) 0)

def Table.smallest? (t : Table) : Option Index :=
  t.sideIndexes.foldl (fun found x =>
    let limit := match found with
      | some y => t.entrySize y
      | none => t.rowSize
    if x.condition.isNone && t.entrySize x < limit then some x else found) none

/-- The number of rows, which is that of the entries in the smallest index. -/
def count? (c : Catalog) (table : String) : Option Nat := do
  let s ← c.schema?
  match s.table? table with
  | none =>
      let rows ← c.select? (selection [.call "count" [] true false] table none [])
      return ((rows.headD []).headD .null).whole.toNat
  | some t =>
      match t.smallest? with
      | some x => return (← c.stored? .index x.name).length
      | none => return (← c.stored? .table t.name).length

/-- Ends a statement: a debt that is left refuses it, and nothing is kept then. -/
def outcome {α : Type} (r : Except Fault α × Work) : Except Refusal (α × Work) :=
  match r with
  | (.ok a, w) => if w.debt = 0 then .ok (a, w) else .error {}
  | (.error .fail, w) =>
      .error { kept := if w.debt = 0 ∧ w.deferred = 0 then some w.catalog else none }
  | (.error _, _) => .error {}

def committed {α : Type} (r : Except Fault α × Work) : Outcome α :=
  match outcome r with
  | .error e => .error e
  | .ok (a, w) => if w.deferred = 0 then .ok (a, w.catalog) else .error {}

def writing (c : Catalog) (table : String) (cells : List (String × String)) (policy : Conflict) :
    Option (Act Unit) := do
  let s ← c.schema?
  let names := cells.map Prod.fst
  let row := cells.map fun (_, text) => Expr.value (.ofString text)
  let rows : Query := .mk (.values [row]) [] [] none none
  let prepared : Bool := match s.table? table, s.view? table with
    | some t, _ =>
        areTargets t names &&
          isPrepared ⟨c, s⟩ depth [] (some policy) t .insertion (writesNumber t names)
            (policy == .replace && t.indexes.any Index.unique)
    | none, some v => isViewPrepared ⟨c, s⟩ depth [] (some policy) v .insertion
    | none, none => false
  guard prepared
  return run s depth none [] (.insert (some policy) table (some names) (some rows) [])

def put (c : Catalog) (table : String) (cells : List (String × String)) (policy : Conflict) :
    Outcome Unit :=
  match c.writing table cells policy with
  | none => .error {}
  | some act => committed (act { catalog := c })

def putAll (c : Catalog) (table : String) (rows : List (List (String × String)))
    (policy : Conflict) : Outcome Unit :=
  let step (w : Work) (cells : List (String × String)) : Except Refusal Work :=
    match w.catalog.writing table cells policy with
    | none => .error {}
    | some act => (outcome (act { w with debt := 0 })).map Prod.snd
  match rows.foldlM step { catalog := c } with
  | .error _ => .error {}
  | .ok w => if w.deferred = 0 then .ok ((), w.catalog) else .error {}

def delete (c : Catalog) (table name key : String) : Outcome Nat :=
  let act? : Option (Act Nat) := do
    let s ← c.schema?
    let t ← s.table? table
    guard (isPrepared ⟨c, s⟩ depth [] none t .deletion false true)
    let rows ← found? ⟨c, s⟩ t (← t.column? name) (.ofString key)
    return do
      let gone ← rows.filterM fun (id, _) => deleteRow s depth t true id
      return gone.length
  match act? with
  | none => .error {}
  | some act => committed (act { catalog := c })

def createTable (c : Catalog) (name sql : String) : Outcome Unit :=
  if c.has .table name || c.has .view name then .ok ((), c)
  else if c.has .index name || !c.canGrow then .error {}
  else
    .ok ((), (c.add { kind := .table, name := name, table := name, sql := some sql }).add
      { kind := .index, name := automaticName name 1, table := name })

def createIndex (c : Catalog) (name table column sql : String) : Outcome Unit :=
  let act? : Option (Act Unit) := do
    let s ← c.schema?
    let t ← s.table? table
    guard !(c.has .table name || c.has .view name)
    if c.has .index name then return pure ()
    else
      let i ← t.column? column
      guard c.canGrow
      return do
        let rows ← rowsOf s t
        let x : Index := {
          name := name, unique := false
          parts := [⟨Catalog.column column, some i,
            (t.columns[i]?.map Column.collation).getD .binary, false⟩] }
        let entries := rows.foldl (fun found (id, values) =>
          place x.order ([values.getD i .null], id) found) []
        modify fun w => { w with
          catalog := w.catalog.add
            { kind := .index, name := name, table := table
              sql := some sql, stored := some entries } }
  match act? with
  | none => .error {}
  | some act => committed (act { catalog := c })

def drop (c : Catalog) (name : String) : Outcome Unit :=
  if c.has .table name then
    .ok ((), { c with items := c.items.filter fun i => i.table != name && i.name != name })
  else .error {}

end Predication.Catalog
