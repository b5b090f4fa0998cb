import Predication.Catalog.Work

namespace Predication.Catalog

open Sql

def settle (conflict : Conflict) : Act Unit :=
  match conflict with
  | .fail => throw .fail
  | _ => throw .abort

inductive Change where
  | insertion
  | deletion
  | update (columns : List String)

def Change.isEvent (change : Change) (event : Event) : Bool :=
  match change, event with
  | .insertion, .insert => true
  | .deletion, .delete => true
  | .update changed, .update columns => columns.isEmpty || columns.any changed.contains
  | _, _ => false

def triggersFor (ts : List TriggerDeclaration) (moment : Moment) (change : Change) :
    List TriggerDeclaration :=
  ts.filter fun d => d.moment == moment && change.isEvent d.event

def seen (t : Table) (name : String) (id values : List Value) : Frame :=
  (t.frame name id values).bare

def admitsType (type : String) (v : Value) : Bool :=
  match v with
  | .null => true
  | .integer _ => type == "int" || type == "integer" || type == "any"
  | .real _ => type == "real" || type == "any"
  | .text _ => type == "text" || type == "any"
  | .blob _ => type == "blob" || type == "any"

def Table.applyAffinities (t : Table) (values : List Value) : List Value :=
  t.columns.zipWith (fun c v => c.affinity.apply v) values

def defaultOf (s : Schema) (c : Column) : Act Value :=
  match c.default with
  | none => return .null
  | some e => do return c.affinity.apply (← evaluate s [] e)

/-- The outcome of the checks on a row: the row as it is to be written, or none if it is skipped. A
value that must not be missing can be replaced by the default one. -/
def checkValues (s : Schema) (t : Table) (policy : Option Conflict) (id values : List Value) :
    Act (Option (List Value)) := do
  let mut found : List Value := []
  for (c, i, v) in t.columns.zip ((List.range t.columns.length).zip values) do
    match c.notNull with
    | some own =>
        if v.isNull && t.numberColumn != some i then
          match policy.getD own, c.default with
          | .ignore, _ => return none
          | .replace, some _ => found := (← defaultOf s c) :: found
          | conflict, _ =>
              settle conflict
              found := v :: found
        else found := v :: found
    | none => found := v :: found
  let values ← complete s t id (t.applyAffinities found.reverse)
  if t.strict && !(t.columns.zip values).all fun (c, v) => admitsType c.type v then throw .abort
  let scope : Scope := [[t.frame t.name id values]]
  for e in t.checks do
    if (← evaluate s scope e).truth? == some false then
      match policy with
      | some .ignore => return none
      | some .fail => throw .fail
      | _ => throw .abort
  return some values

def rivals (s : Schema) (t : Table) (x : Index) (own : Option (List Value))
    (id values : List Value) : Act (List (List Value)) := do
  match ← keyOf? s t x id values with
  | none => return []
  | some key =>
      if key.any Value.isNull then return []
      else
        let entries ← if t.withoutNumbers && x.isPrimary then
            pure ((← storedOf .table t.name).map fun r => (r.1, r.1))
          else storedOf .index x.name
        let found := entries.filter fun e => compareKeys x.order e.1 key == .eq
        return (found.map Prod.snd).filter fun e => !own.any (sameValues e)

def isAboutIndex (t : Table) (x : Index) (target : List String) : Bool :=
  x.unique && x.condition.isNone && target.length == x.parts.length &&
    x.parts.all fun p => p.column.any fun i => (t.columns[i]?.map Column.name).any target.contains

def isAboutNumber (t : Table) (target : List String) : Bool :=
  t.numberColumn.any fun i => (t.columns[i]?.map Column.name).any fun name => target == [name]

def upsertFor? (t : Table) (x : Index) (upserts : List Upsert) : Option Upsert :=
  upserts.find? fun u => u.target.isEmpty || isAboutIndex t x u.target

def upsertForNumber? (t : Table) (upserts : List Upsert) : Option Upsert :=
  upserts.find? fun u => u.target.isEmpty || isAboutNumber t u.target

def hasKeyFor (t : Table) (u : Upsert) : Bool :=
  u.target.isEmpty || isAboutNumber t u.target ||
    t.indexes.any fun x => isAboutIndex t x u.target

structure Insertion where
  values : List (Nat × Value)
  number : Option Value := none

inductive Target where
  | column (i : Nat)
  | number

def Table.target? (t : Table) (name : String) : Option Target :=
  match t.column? name with
  | some i => if (t.columns[i]?.bind Column.generated).isSome then none else some (.column i)
  | none =>
      if !t.withoutNumbers && Table.numberNames.contains name then some .number else none

def Table.plainColumns (t : Table) : List String :=
  (t.columns.filter fun c => c.generated.isNone).map Column.name

def insertionOf (targets : List Target) (row : List Value) : Insertion :=
  (targets.zip row).foldl (fun ins (target, v) =>
    match target with
    | .column i => { ins with values := ins.values ++ [(i, v)] }
    | .number => { ins with number := some v }) { values := [] }

def touchedKeys (s : Schema) (t : Table) (changed : List Nat) :
    List ForeignKey × List (Table × ForeignKey) :=
  (t.foreignKeys.filter fun k => k.columns.any changed.contains,
    (s.referrers t).filter fun (_, k) =>
      match parent? s k with
      | some (_, columns) => columns.any changed.contains
      | none => true)

def unlessIgnored (act : Act Unit) : Act Bool :=
  fun w =>
    match act w with
    | (.ok (), w) => (.ok true, w)
    | (.error .ignore, w) => (.ok false, w)
    | (.error f, w) => (.error f, w)

def whileRunning (name : String) (act : Act Unit) : Act Unit := do
  let before := (← get).running
  if before.contains name then return
  else
    modify fun w => { w with running := name :: before }
    let run : Act Unit := fun w =>
      let (a, w) := act w
      (a, { w with running := before })
    run

mutual

def fire (s : Schema) : Nat → List TriggerDeclaration → Option Conflict → Scope → Act Bool
  | 0, _, _, _ => throw .abort
  | fuel + 1, ts, policy, scope =>
      match ts with
      | [] => return true
      | d :: rest => do
          let goesOn ← unlessIgnored (whileRunning d.name (do
            let holds ← match d.condition with
              | none => pure true
              | some e => do pure ((← evaluate s scope e).truth? == some true)
            if holds then runAll s fuel policy scope d.body))
          if goesOn then fire s fuel rest policy scope else return false

def runAll (s : Schema) : Nat → Option Conflict → Scope → List Statement → Act Unit
  | 0, _, _, _ => throw .abort
  | fuel + 1, policy, scope, steps =>
      match steps with
      | [] => return
      | step :: rest => do
          run s fuel policy scope step
          runAll s fuel policy scope rest

/-- Runs a statement. The policy on conflicts of the statement outside goes before its own. -/
def run (s : Schema) : Nat → Option Conflict → Scope → Statement → Act Unit
  | 0, _, _, _ => throw .abort
  | fuel + 1, policy, scope, step =>
      match step with
      | .query q => do
          let _ ← ofAnswer (query (← context s) depth scope q)
      | .insert own table columns rows upserts => do
          let policy := policy.or own
          let rows ← match rows with
            | none => pure [[]]
            | some q => ofAnswer (query (← context s) depth scope q)
          match s.table? table, s.view? table with
          | some t, _ =>
              let names := columns.getD t.plainColumns
              match names.mapM t.target? with
              | none => throw .abort
              | some targets =>
                  for row in rows do
                    insertRow s fuel t policy upserts (insertionOf targets row)
          | none, some v =>
              for row in rows do
                let frame ← viewRow s v columns row
                let _ ← fire s fuel (triggersFor v.triggers .instead .insertion) policy [[frame]]
          | none, none => throw .abort
      | .delete table condition => do
          match s.table? table, s.view? table with
          | some t, _ =>
              for (id, _) in ← matching s t scope condition do
                let _ ← deleteRow s fuel t true id
          | none, some v =>
              for frame in ← viewMatching s v scope condition do
                let _ ← fire s fuel (triggersFor v.triggers .instead .deletion) none
                  [[{ frame with name := "old" }.bare]]
          | none, none => throw .abort
      | .update own table changes condition => do
          let policy := policy.or own
          match s.table? table, s.view? table with
          | some t, _ =>
              for (id, _) in ← matching s t scope condition do
                updateBy s fuel t policy scope id changes
          | none, some v =>
              for frame in ← viewMatching s v scope condition do
                let new ← frame.headers.zip frame.values |>.mapM fun (h, old) =>
                  match changes.find? fun (n, _) => n == h.name with
                  | some (_, e) => evaluate s ([frame] :: scope) e
                  | none => pure old
                let change := Change.update (changes.map Prod.fst)
                let _ ← fire s fuel (triggersFor v.triggers .instead change) policy
                  [[{ frame with name := "new", values := new }.bare,
                    { frame with name := "old" }.bare]]
          | none, none => throw .abort

def matching (s : Schema) (t : Table) (scope : Scope) (condition : Option Expr) : Act Stored := do
  (← rowsOf s t).filterM fun (id, values) => do
    match condition with
    | none => return true
    | some e =>
        return (← evaluate s ([t.frame t.name id values] :: scope) e).truth? == some true

def viewFrames (s : Schema) (v : View) : Act (List Frame) := do
  ofAnswer (sourceFrames (← context s) depth [] (.table v.name none .inner none))

def viewMatching (s : Schema) (v : View) (scope : Scope) (condition : Option Expr) :
    Act (List Frame) := do
  (← viewFrames s v).filterM fun frame => do
    match condition with
    | none => return true
    | some e => return (← evaluate s ([frame] :: scope) e).truth? == some true

def viewRow (s : Schema) (v : View) (columns : Option (List String)) (row : List Value) :
    Act Frame := do
  match blank? (← context s) depth [] (.table v.name none .inner none) with
  | none => throw .abort
  | some frame =>
      let names := columns.getD (frame.headers.map Header.name)
      let values := frame.headers.map fun h =>
        ((names.zip row).find? fun (n, _) => n == h.name).map Prod.snd |>.getD .null
      return { frame with name := "new", values := values }.bare

def updateBy (s : Schema) : Nat → Table → Option Conflict → Scope → List Value →
    List (String × Expr) → Act Unit
  | 0, _, _, _, _, _ => throw .abort
  | fuel + 1, t, policy, scope, id, changes => do
      match ← row? t id with
      | none => return
      | some values =>
          let values ← complete s t id values
          let inner : Scope := [t.frame t.name id values] :: scope
          let found ← changes.mapM fun (name, e) => do return (name, ← evaluate s inner e)
          let cells := found.filterMap fun (name, v) => (t.column? name).map fun i => (i, v)
          let number := (found.find? fun (name, _) =>
            (t.column? name).isNone && Table.numberNames.contains name).map Prod.snd
          updateRow s fuel t policy id cells number

def insertRow (s : Schema) :
    Nat → Table → Option Conflict → List Upsert → Insertion → Act Unit
  | 0, _, _, _, _ => throw .abort
  | fuel + 1, t, policy, upserts, ins => do
      let given ← (t.columns.zip (List.range t.columns.length)).mapM fun (c, i) =>
        match ins.values.find? fun (j, _) => j == i with
        | some (_, v) => pure v
        | none => defaultOf s c
      let asked : Value :=
        match ins.number, t.numberColumn with
        | some n, _ => n
        | none, some i => given.getD i .null
        | none, none => .null
      let before := triggersFor t.triggers .before .insertion
      let goesOn ← if before.isEmpty then pure true
        else do
          let number ← if asked.isNull then pure (-1)
            else match rowNumber? asked with
              | some n => pure n
              | none => throw .abort
          let values := shownNumber t number (t.applyAffinities given)
          let values ← complete s t [.integer number] values
          fire s fuel before policy [[seen t "new" [.integer number] values]]
      if !goesOn then return
      let number ← if t.withoutNumbers then pure 0
        else if asked.isNull then newNumber t
        else match rowNumber? asked with
          | some n => pure n
          | none => throw .abort
      let values := shownNumber t number (t.applyAffinities given)
      let values ← complete s t [.integer number] values
      match ← checkValues s t policy [.integer number] values with
      | none => return
      | some values =>
          let id := t.idOf number values
          let isAsked := !t.withoutNumbers && !asked.isNull
          if !(← makeRoom s fuel t policy upserts none isAsked id values) then return
          enterReferences s t t.foreignKeys (s.referrers t) values
          addRow s t id values
          useNumber t number
          let after := triggersFor t.triggers .after .insertion
          let _ ← fire s fuel after policy [[seen t "new" id values]]

def makeRoom (s : Schema) :
    Nat → Table → Option Conflict → List Upsert → Option (List Value) → Bool →
    List Value → List Value → Act Bool
  | 0, _, _, _, _, _, _, _ => throw .abort
  | fuel + 1, t, policy, upserts, own, isAsked, id, values => do
      if isAsked && !own.any (sameValues id) then
        if (← row? t id).isSome then
          let goesOn ← yieldTo s fuel t (policy.getD (t.numberConflict.getD .abort))
            (upsertForNumber? t upserts) id values
          if !goesOn then return false
      makeRoomAmong s fuel t policy upserts own id values t.indexes

def makeRoomAmong (s : Schema) : Nat → Table → Option Conflict → List Upsert → Option (List Value) →
    List Value → List Value → List Index → Act Bool
  | 0, _, _, _, _, _, _, _ => throw .abort
  | fuel + 1, t, policy, upserts, own, id, values, indexes =>
      match indexes with
      | [] => return true
      | x :: rest => do
          let found ← if x.unique then rivals s t x own id values else pure []
          match found with
          | [] => makeRoomAmong s fuel t policy upserts own id values rest
          | rival :: _ =>
              let goesOn ← yieldTo s fuel t (policy.getD (x.conflict.getD .abort))
                (upsertFor? t x upserts) rival values
              if goesOn then makeRoomAmong s fuel t policy upserts own id values rest
              else return false

/-- What becomes of a row that is in the way: it is deleted or updated, or it stays and the new row
is skipped. -/
def yieldTo (s : Schema) :
    Nat → Table → Conflict → Option Upsert → List Value → List Value → Act Bool
  | 0, _, _, _, _, _ => throw .abort
  | fuel + 1, t, conflict, upsert, rival, values =>
      match upsert with
      | some u => do
          match u.changes, ← row? t rival with
          | some changes, some old =>
              let old ← complete s t rival old
              let inner : Scope :=
                [[t.frame t.name rival old],
                  [{ t.frame "excluded" rival values with number := none }]]
              let holds ← match u.condition with
                | none => pure true
                | some e => do pure ((← evaluate s inner e).truth? == some true)
              if holds then
                let found ← changes.mapM fun (name, e) => do return (name, ← evaluate s inner e)
                let cells := found.filterMap fun (name, v) => (t.column? name).map fun i => (i, v)
                updateRow s fuel t none rival cells none
              return false
          | _, _ => return false
      | none =>
          match conflict with
          | .replace => do
              let _ ← deleteRow s fuel t false rival
              return true
          | .ignore => return false
          | other => do
              settle other
              return false

def deleteRow (s : Schema) : Nat → Table → Bool → List Value → Act Bool
  | 0, _, _, _ => throw .abort
  | fuel + 1, t, fires, id => do
      match ← row? t id with
      | none => return false
      | some values =>
          let old ← complete s t id values
          let before := if fires then triggersFor t.triggers .before .deletion else []
          let goesOn ← fire s fuel before none [[seen t "old" id old]]
          match goesOn, ← row? t id with
          | true, some now =>
              leaveReferences s t t.foreignKeys (s.referrers t) id old
              dropRow s t id (← complete s t id now)
              follow s fuel t (s.referrers t) Reference.onDelete old none
              let after := if fires then triggersFor t.triggers .after .deletion else []
              let _ ← fire s fuel after none [[seen t "old" id old]]
              return true
          | _, _ => return false

def follow (s : Schema) : Nat → Table → List (Table × ForeignKey) → (Reference → Action) →
    List Value → Option (List Value) → Act Unit
  | 0, _, _, _, _, _ => throw .abort
  | fuel + 1, t, keys, action, old, new =>
      match keys with
      | [] => return
      | (child, key) :: rest => do
          match parent? s key with
          | none => follow s fuel t rest action old new
          | some (_, columns) =>
              let isSame := new.any fun vs =>
                columns.all fun i => old.getD i .null == vs.getD i .null
              let rows ← if isSame then pure []
                else childrenOf s child key t columns true old
              match action key.target with
              | .nothing => pure ()
              | .restrict => if !rows.isEmpty then throw .abort
              | .cascade =>
                  for (id, _) in rows do
                    match new with
                    | none =>
                        let _ ← deleteRow s fuel child true id
                    | some vs =>
                        updateRow s fuel child (some .abort) id
                          ((key.columns.zip columns).map fun (i, j) => (i, vs.getD j .null)) none
              | .setNull =>
                  for (id, _) in rows do
                    updateRow s fuel child (some .abort) id
                      (key.columns.map fun i => (i, .null)) none
              | .setDefault =>
                  for (id, _) in rows do
                    let cells ← key.columns.mapM fun i => do
                      match child.columns[i]? with
                      | some c => return (i, ← defaultOf s c)
                      | none => return (i, .null)
                    updateRow s fuel child (some .abort) id cells none
              follow s fuel t rest action old new

def updateRow (s : Schema) : Nat → Table → Option Conflict → List Value → List (Nat × Value) →
    Option Value → Act Unit
  | 0, _, _, _, _, _ => throw .abort
  | fuel + 1, t, policy, id, cells, number => do
      match ← row? t id with
      | none => return
      | some values =>
          let old ← complete s t id values
          let asked : Option Value := number.or
            (t.numberColumn.bind fun i => (cells.find? fun (j, _) => j == i).map Prod.snd)
          let newNumber ← match asked with
            | none => pure (id.headD .null).whole
            | some v =>
                match rowNumber? v with
                | some n => pure n
                | none => throw .abort
          let change (values : List Value) : List Value :=
            shownNumber t newNumber (t.applyAffinities ((List.range t.columns.length).map fun i =>
              ((cells.find? fun (j, _) => j == i).map Prod.snd).getD (values.getD i .null)))
          let names := cells.filterMap fun (i, _) => t.columns[i]?.map Column.name
          let names := if asked.isSome then "rowid" :: names else names
          let new ← complete s t [.integer newNumber] (change old)
          let before := triggersFor t.triggers .before (.update names)
          let goesOn ← fire s fuel before policy
            [[seen t "new" (t.idOf newNumber new) new, seen t "old" id old]]
          match goesOn, ← row? t id with
          | true, some now =>
              let now ← complete s t id now
              let new ← complete s t [.integer newNumber] (change now)
              match ← checkValues s t policy [.integer newNumber] new with
              | none => return
              | some new =>
                  let newId := t.idOf newNumber new
                  if !(← makeRoom s fuel t policy [] (some id) asked.isSome newId new) then return
                  let changed := cells.map Prod.fst ++
                    (if asked.isSome then t.numberColumn.toList else [])
                  let (own, others) := touchedKeys s t changed
                  leaveReferences s t own others id old
                  dropRow s t id now
                  enterReferences s t own others new
                  addRow s t newId new
                  follow s fuel t others Reference.onUpdate old (some new)
                  let after := triggersFor t.triggers .after (.update names)
                  let _ ← fire s fuel after policy
                    [[seen t "new" newId new, seen t "old" id old]]
          | _, _ => return

def shownNumber (t : Table) (number : Int) (values : List Value) : List Value :=
  match t.numberColumn with
  | some i => values.set i (.integer number)
  | none => values

end

end Predication.Catalog
