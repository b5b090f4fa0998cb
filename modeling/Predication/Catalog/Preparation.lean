import Predication.Catalog.Change

namespace Predication.Catalog

open Sql

def eventScope (change : Change) (blank : Frame) : Scope :=
  let new : Frame := { blank with name := "new" }
  let old : Frame := { blank with name := "old" }
  match change with
  | .insertion => [[new.bare]]
  | .deletion => [[old.bare]]
  | .update _ => [[new.bare, old.bare]]

def keysLead (s : Schema) (t : Table) (change : Change) (many : Bool) : Bool :=
  let lead (keys : List ForeignKey) : Bool := keys.all fun k => (parent? s k).isSome
  let others := (s.referrers t).map Prod.snd
  match change with
  | .insertion => lead t.foreignKeys && lead (others.filter fun k => many || k.target.deferred)
  | .deletion => lead t.foreignKeys && lead others
  | .update names =>
      let (own, others) := touchedKeys s t (names.filterMap t.column?)
      lead own && lead (others.map Prod.snd)

def Change.columns : Change → List String
  | .insertion => []
  | .deletion => []
  | .update columns => columns

def writesNumber (t : Table) (columns : List String) : Bool :=
  columns.any fun name =>
    match t.target? name with
    | some .number => true
    | some (.column i) => t.numberColumn == some i
    | none => false

/-- Whether a change of rows of a table writes entries of an index. All are written with a new
identity of the rows, and where rows follow. -/
def touches (s : Schema) (t : Table) (change : Change) (numbered : Bool) (x : Index) : Bool :=
  match change with
  | .insertion => true
  | .deletion => true
  | .update names =>
      let changed := names.filterMap t.column?
      let isChanged (x : Index) : Bool := x.parts.any fun p => p.column.all changed.contains
      let (own, others) := touchedKeys s t changed
      let isFollowed := (own.any fun k => k.target.table == t.name) ||
        others.any fun (_, k) => match k.target.onUpdate with
          | .nothing => false
          | _ => true
      numbered || x.isPrimary || x.condition.isSome || isChanged x || isFollowed ||
        t.primaryIndex?.any fun x => t.withoutNumbers && isChanged x

/-- Whether a row that is written can take the place of others: of one with its number if that is
given, and of those with its keys. -/
def replacesRows (s : Schema) (t : Table) (policy : Option Conflict) (change : Change)
    (numbered : Bool) : Bool :=
  let replaces (own : Option Conflict) : Bool := policy.or own == some .replace
  match change with
  | .deletion => false
  | _ =>
      (numbered && replaces t.numberConflict) ||
        t.indexes.any fun x =>
          x.unique && touches s t change numbered x && replaces x.conflict

def areTargets (t : Table) (columns : List String) : Bool :=
  columns.all fun name => (t.target? name).isSome

mutual

/-- Whether a change of a table can be made, as far as that is known before it. The names of the
triggers that were looked at are left out, `numbered` says whether the change writes the numbers of
rows, and `many` whether it can have several steps. -/
def isPrepared (c : Context) :
    Nat → List String → Option Conflict → Table → Change → Bool → Bool → Bool
  | 0, _, _, _, _, _, _ => true
  | fuel + 1, visited, policy, t, change, numbered, many =>
      let ts := t.triggers.filter fun d => change.isEvent d.event && !visited.contains d.name
      let visited := ts.map TriggerDeclaration.name ++ visited
      let inner := match change with
        | .deletion => none
        | _ => policy
      let replaces := replacesRows c.schema t policy change numbered
      keysLead c.schema t change (many || !ts.isEmpty) &&
        t.checks.all (isResolved c depth [[t.blank t.name]]) &&
        ts.all (isTriggerPrepared c fuel visited inner (eventScope change (t.blank t.name))) &&
        followers c fuel visited t change &&
        (!replaces || followers c fuel visited t .deletion)

def followers (c : Context) : Nat → List String → Table → Change → Bool
  | 0, _, _, _ => true
  | fuel + 1, visited, t, change =>
      let changed (child : Table) (key : ForeignKey) : Change :=
        .update (key.columns.filterMap fun i => child.columns[i]?.map Column.name)
      let prepared (mark : String) (child : Table) (change : Change) : Bool :=
        isPrepared c fuel (mark :: visited) (some .abort) child change
          (writesNumber child change.columns) true
      match change with
      | .insertion => true
      | .deletion =>
          (c.schema.referrers t).all fun (child, key) =>
            let mark := child.name ++ " deletion"
            if visited.contains mark then true
            else
              match key.target.onDelete with
              | .cascade => prepared mark child .deletion
              | .setNull => prepared mark child (changed child key)
              | .setDefault => prepared mark child (changed child key)
              | _ => true
      | .update names =>
          (touchedKeys c.schema t (names.filterMap t.column?)).2.all fun (child, key) =>
            let mark := child.name ++ " update"
            if visited.contains mark then true
            else
              match key.target.onUpdate with
              | .nothing => true
              | .restrict => true
              | _ => prepared mark child (changed child key)

def isTriggerPrepared (c : Context) :
    Nat → List String → Option Conflict → Scope → TriggerDeclaration → Bool
  | 0, _, _, _, _ => true
  | fuel + 1, visited, policy, scope, d =>
      d.condition.all (isResolved c depth scope) &&
        d.body.all (isStepPrepared c fuel visited policy scope)

def isViewPrepared (c : Context) : Nat → List String → Option Conflict → View → Change → Bool
  | 0, _, _, _, _ => true
  | fuel + 1, visited, policy, v, change =>
      match blank? c depth [] (.table v.name none .inner none) with
      | none => false
      | some blank =>
          let all := triggersFor v.triggers .instead change
          let ts := all.filter fun d => !visited.contains d.name
          !all.isEmpty && ts.all fun d =>
            isTriggerPrepared c fuel (d.name :: visited) policy (eventScope change blank) d

def isStepPrepared (c : Context) : Nat → List String → Option Conflict → Scope → Statement → Bool
  | 0, _, _, _, _ => true
  | fuel + 1, visited, policy, scope, step =>
      match step with
      | .query q => (headers? c depth scope q).isSome
      | .insert own table columns rows upserts =>
          let policy := policy.or own
          let width : Option Nat := match rows with
            | none => some 0
            | some q => (headers? c depth scope q).map List.length
          match c.schema.table? table, c.schema.view? table with
          | some t, _ =>
              let names := columns.getD t.plainColumns
              areTargets t names && width.any (fun n => n == names.length || rows.isNone) &&
                upserts.all (isUpsertPrepared c fuel visited scope t) &&
                isPrepared c fuel visited policy t .insertion (writesNumber t names) true
          | none, some v => width.isSome && isViewPrepared c fuel visited policy v .insertion
          | none, none => false
      | .delete table condition =>
          match c.schema.table? table, c.schema.view? table with
          | some t, _ =>
              condition.all (isResolved c depth ([t.blank t.name] :: scope)) &&
                isPrepared c fuel visited none t .deletion false true
          | none, some v =>
              (blank? c depth [] (.table v.name none .inner none)).any (fun blank =>
                condition.all (isResolved c depth ([blank] :: scope))) &&
                isViewPrepared c fuel visited none v .deletion
          | none, none => false
      | .update own table changes condition =>
          let policy := policy.or own
          match c.schema.table? table, c.schema.view? table with
          | some t, _ =>
              let inner : Scope := [t.blank t.name] :: scope
              let names := changes.map Prod.fst
              changes.all (fun (name, e) => areTargets t [name] && isResolved c depth inner e) &&
                condition.all (isResolved c depth inner) &&
                isPrepared c fuel visited policy t (.update names) (writesNumber t names) true
          | none, some v =>
              (blank? c depth [] (.table v.name none .inner none)).any (fun blank =>
                condition.all (isResolved c depth ([blank] :: scope)) &&
                  changes.all fun (_, e) => isResolved c depth ([blank] :: scope) e) &&
                isViewPrepared c fuel visited policy v (.update (changes.map Prod.fst))
          | none, none => false

def isUpsertPrepared (c : Context) : Nat → List String → Scope → Table → Upsert → Bool
  | 0, _, _, _, _ => true
  | fuel + 1, visited, scope, t, u =>
      let inner : Scope :=
        [t.blank t.name] :: [{ t.blank "excluded" with number := none }] :: scope
      hasKeyFor t u && u.condition.all (isResolved c depth inner) &&
        u.changes.all fun changes =>
          let names := changes.map Prod.fst
          changes.all (fun (name, e) => areTargets t [name] && isResolved c depth inner e) &&
            isPrepared c fuel visited none t (.update names) (writesNumber t names) true

end

end Predication.Catalog
