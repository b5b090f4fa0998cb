import Predication.Catalog.Query

namespace Predication.Catalog

open Sql

/-- A statement in progress. A debt is a number of references that lead to no row; that of the
statement must be gone at its end, and the deferred one at the end of the transaction. The triggers
that run do not start again. -/
structure Work where
  catalog : Catalog
  debt : Nat := 0
  deferred : Nat := 0
  running : List String := []

/-- A step leaves what it did when it stops. -/
abbrev Act := ExceptT Fault (StateM Work)

def ofAnswer {α : Type} (a : Answer α) : Act α :=
  match a with
  | .ok a => pure a
  | .error f => throw f

def context (s : Schema) : Act Context := do
  return ⟨(← get).catalog, s⟩

def evaluate (s : Schema) (scope : Scope) (e : Expr) : Act Value := do
  ofAnswer (eval (← context s) depth scope none e)

def storedOf (kind : ItemKind) (name : String) : Act Stored := do
  match (← get).catalog.stored? kind name with
  | some rows => return rows
  | none => throw .abort

def store (kind : ItemKind) (name : String) (rows : Stored) : Act Unit :=
  modify fun w => { w with catalog := w.catalog.putStored kind name rows }

def Table.order (t : Table) : List (Collation × Bool) :=
  if t.withoutNumbers then
    ((t.primaryIndex?.map Index.parts).getD []).map fun p => (p.collation, p.descending)
  else []

def Index.order (x : Index) : List (Collation × Bool) :=
  x.parts.map fun p => (p.collation, p.descending)

def place (order : List (Collation × Bool)) (entry : List Value × List Value) : Stored → Stored
  | [] => [entry]
  | other :: rest =>
      let c := compareKeys order entry.1 other.1
      if c = .lt ∨ (c = .eq ∧ compareKeys [] entry.2 other.2 = .lt) then entry :: other :: rest
      else other :: place order entry rest

def rowAt? (rows : Stored) (id : List Value) : Option (List Value) :=
  (rows.find? fun r => sameValues r.1 id).map Prod.snd

def row? (t : Table) (id : List Value) : Act (Option (List Value)) := do
  return rowAt? (← storedOf .table t.name) id

def complete (s : Schema) (t : Table) (id values : List Value) : Act (List Value) := do
  ofAnswer (completed (← context s) depth t id values)

def keyOf? (s : Schema) (t : Table) (x : Index) (id values : List Value) :
    Act (Option (List Value)) := do
  let scope : Scope := [[t.frame t.name id values]]
  let holds ← match x.condition with
    | none => pure true
    | some e => do pure ((← evaluate s scope e).truth? == some true)
  if !holds then return none
  else
    let key ← x.parts.mapM fun p =>
      match p.column with
      | some i => pure (values.getD i .null)
      | none => evaluate s scope p.expr
    return some key

def Table.idOf (t : Table) (number : Int) (values : List Value) : List Value :=
  if t.withoutNumbers then
    ((t.primaryIndex?.map Index.parts).getD []).map fun p =>
      (p.column.map fun i => values.getD i .null).getD .null
  else [.integer number]

def addRow (s : Schema) (t : Table) (id values : List Value) : Act Unit := do
  store .table t.name (place t.order (id, values) (← storedOf .table t.name))
  for x in t.sideIndexes do
    if let some key ← keyOf? s t x id values then
      store .index x.name (place x.order (key, id) (← storedOf .index x.name))

def dropRow (s : Schema) (t : Table) (id values : List Value) : Act Unit := do
  for x in t.sideIndexes do
    if let some key ← keyOf? s t x id values then
      let entries ← storedOf .index x.name
      let isEntry (e : List Value × List Value) : Bool :=
        compareKeys x.order e.1 key == .eq && sameValues e.2 id
      if !entries.any isEntry then throw .abort
      store .index x.name (entries.filter fun e => !isEntry e)
  store .table t.name ((← storedOf .table t.name).filter fun r => !sameValues r.1 id)

def parent? (s : Schema) (key : ForeignKey) : Option (Table × List Nat) := do
  let t ← s.table? key.target.table
  let named ← key.target.columns.mapM t.column?
  let isNumber := key.columns.length == 1 &&
    t.numberColumn.any fun i => named.isEmpty || named == [i]
  if isNumber then return (t, t.numberColumn.toList)
  else
    let fits (x : Index) : Bool :=
      x.unique && x.condition.isNone && x.parts.length == key.columns.length &&
        if named.isEmpty then x.isPrimary
        else
          x.parts.all fun p => p.column.any fun i =>
            named.contains i && (t.columns[i]?.map Column.collation) == some p.collation
    let x ← t.indexes.find? fits
    return (t, if named.isEmpty then x.parts.filterMap KeyPart.column else named)

def reference (columns : List Nat) (values : List Value) : Option (List Value) :=
  let vs := columns.map fun i => values.getD i .null
  if vs.any Value.isNull then none else some vs

def refersTo (parent : Table) (columns : List Nat) (key values : List Value) : Bool :=
  (columns.zip key).all fun (i, v) =>
    match parent.columns[i]? with
    | some c => (c.affinity.apply v).compare c.collation (values.getD i .null) == .eq
    | none => false

def rowsOf (s : Schema) (t : Table) : Act Stored := do
  (← storedOf .table t.name).mapM fun (id, values) => do return (id, ← complete s t id values)

def Schema.referrers (s : Schema) (t : Table) : List (Table × ForeignKey) :=
  s.tables.flatMap fun u =>
    (u.foreignKeys.filter fun k => k.target.table == t.name).map fun k => (u, k)

/-- Whether a row of a child has the values of a row of its parent. Where actions follow, the row of
the parent is there no more, and its values have no affinity but that of a number. -/
def isChild (child parent : Table) (places : List (Nat × Nat)) (acting : Bool)
    (own values : List Value) : Bool :=
  places.all fun (i, j) =>
    match child.columns[i]?, parent.columns[j]? with
    | some c, some p =>
        let above := if acting && parent.numberColumn != some j then none else some p.affinity
        compareAligned (commonAffinity above (some c.affinity)) p.collation
          (values.getD j .null) (own.getD i .null) == .eq
    | _, _ => false

def childrenOf (s : Schema) (child : Table) (key : ForeignKey) (parent : Table) (columns : List Nat)
    (acting : Bool) (values : List Value) : Act Stored := do
  return (← rowsOf s child).filter fun (_, own) =>
    (reference key.columns own).isSome && (reference columns values).isSome &&
      isChild child parent (key.columns.zip columns) acting own values

def owe (key : ForeignKey) (n : Nat) : Act Unit :=
  modify fun w =>
    if key.target.deferred then { w with deferred := w.deferred + n }
    else { w with debt := w.debt + n }

def repay (key : ForeignKey) (n : Nat) : Act Unit :=
  modify fun w =>
    if key.target.deferred then { w with deferred := w.deferred - n }
    else { w with debt := w.debt - n }

/-- Whether a row of the child leads to a row of its parent. A row that is not there yet can lead to
itself if the values are the very same. -/
def leads (s : Schema) (t : Table) (key : ForeignKey) (enters : Bool) (values : List Value) :
    Act Bool := do
  match reference key.columns values with
  | none => return true
  | some r =>
      match parent? s key with
      | none => throw .abort
      | some (parent, columns) =>
          let own := columns.map fun i => values.getD i .null
          if enters && parent.name == t.name && sameValues own r then return true
          else return (← rowsOf s parent).any fun (_, vs) => refersTo parent columns r vs

def enterReferences (s : Schema) (t : Table) (own : List ForeignKey)
    (others : List (Table × ForeignKey)) (values : List Value) : Act Unit := do
  for key in own do
    if !(← leads s t key true values) then owe key 1
  for (child, key) in others do
    if let some (_, columns) := parent? s key then
      repay key (← childrenOf s child key t columns false values).length

def leaveReferences (s : Schema) (t : Table) (own : List ForeignKey)
    (others : List (Table × ForeignKey)) (id values : List Value) : Act Unit := do
  for key in own do
    if !(← leads s t key false values) then repay key 1
  for (child, key) in others do
    if let some (_, columns) := parent? s key then
      let children ← childrenOf s child key t columns false values
      owe key (children.filter fun r => !(child.name == t.name && sameValues r.1 id)).length

def rowNumber? (v : Value) : Option Int :=
  match Affinity.numeric.apply v with
  | .integer n => some n
  | _ => none

def sequenceName : String := "sqlite_sequence"

def usedNumber (t : Table) : Act Int := do
  let rows ← storedOf .table sequenceName
  let used := rows.filter fun (_, vs) => (vs.headD .null).string?.any (·.toLower == t.name)
  return ((used.head?.map fun (_, vs) => (vs.getD 1 .null).whole).getD 0)

def useNumber (t : Table) (n : Int) : Act Unit := do
  if t.autoincrement then
    let rows ← storedOf .table sequenceName
    let isOwn (r : List Value × List Value) : Bool :=
      (r.2.headD .null).string?.any (·.toLower == t.name)
    if rows.any isOwn then
      store .table sequenceName (rows.map fun r =>
        if isOwn r then (r.1, [r.2.headD .null, .integer (max n (r.2.getD 1 .null).whole)]) else r)
    else
      let next := (rows.map fun r => (r.1.headD .null).whole).foldl max 0 + 1
      store .table sequenceName (rows ++ [([.integer next], [.ofString t.name, .integer n])])

def newNumber (t : Table) : Act Int := do
  let greatest := ((← storedOf .table t.name).getLast?.map fun r => (r.1.headD .null).whole).getD 0
  let rows ← storedOf .table t.name
  if t.autoincrement then
    let n := max greatest (← usedNumber t) + 1
    if fitsInteger n then return max 1 n else throw .abort
  else if rows.isEmpty then return 1
  else if fitsInteger (greatest + 1) then return greatest + 1
  else
    let isFree (i : Nat) : Bool := !rows.any fun r => r.1.headD .null == .integer (i + 1)
    return ((((List.range (rows.length + 1)).find? isFree).getD 0 : Nat) : Int) + 1

end Predication.Catalog
