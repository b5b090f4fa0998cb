import Predication.Catalog.Scheme
import Predication.Sql.Function

namespace Predication.Catalog

open Sql

/-- A column as it is seen from outside: a value of an expression that is no column has no affinity.
-/
structure Header where
  name : String
  affinity : Option Affinity := none
  collation : Collation := .binary

structure Frame where
  name : String
  headers : List Header
  values : List Value
  number : Option Value := none

abbrev Scope := List (List Frame)

structure Context where
  catalog : Catalog
  schema : Schema

def Table.headers (t : Table) : List Header :=
  t.columns.map fun c => ⟨c.name, some c.affinity, c.collation⟩

def Table.frame (t : Table) (name : String) (id values : List Value) : Frame where
  name := name
  headers := t.headers
  values := values
  number := if t.withoutNumbers then none else some (id.headD .null)

def Frame.bare (f : Frame) : Frame :=
  { f with headers := f.headers.map fun h => { h with affinity := none } }

def Table.blank (t : Table) (name : String) : Frame :=
  t.frame name [.null] (t.columns.map fun _ => .null)

namespace Frame

def column? (f : Frame) (name : String) : Option (Header × Value) :=
  (f.headers.zip f.values).find? fun (h, _) => h.name == name

def number? (f : Frame) (name : String) : Option (Header × Value) :=
  if Table.numberNames.contains name then f.number.map fun n => (⟨name, some .integer, .binary⟩, n)
  else none

end Frame

def findIn (frames : List Frame) (table : Option String) (name : String) :
    Option (Option (Header × Value)) :=
  let frames := frames.filter fun f => table.all (· == f.name)
  match frames.filterMap (·.column? name) with
  | [found] => some (some found)
  | _ :: _ => some none
  | [] =>
      match frames.filterMap (·.number? name) with
      | [found] => some (some found)
      | _ :: _ => some none
      | [] => none

def find? : Scope → Option String → String → Option (Header × Value)
  | [], _, _ => none
  | frames :: outer, table, name =>
      match findIn frames table name with
      | some found => found
      | none => find? outer table name

/-- What a reference stands for; a name in double quotes can be a text, and there are names for the
truth values. -/
def reference? (s : Scope) (table : Option String) (name : String) (double : Bool) :
    Option (Header × Value) :=
  match find? s table name.toLower with
  | some found => some found
  | none =>
      if table.isSome then none
      else if double then some (⟨name, none, .binary⟩, .ofString name)
      else if name = "true" ∨ name = "false" then
        some (⟨name, none, .binary⟩, .ofBool (name == "true"))
      else none

def isAggregate (name : String) (count : Nat) (star : Bool) : Bool :=
  match name with
  | "count" => star || count ≤ 1
  | "sum" | "total" | "avg" | "min" | "max" => count == 1
  | "group_concat" => count == 1 || count == 2
  | "string_agg" => count == 2
  | _ => false

mutual

def aggregates : Expr → Bool
  | .call name args star _ => isAggregate name args.length star || aggregatesAny args
  | .unary _ e => aggregates e
  | .binary _ a b => aggregates a || aggregates b
  | .collate e _ => aggregates e
  | .cast e _ => aggregates e
  | .choose base arms other =>
      aggregatesOption base || aggregatesArms arms || aggregatesOption other
  | .between e low high => aggregates e || aggregates low || aggregates high
  | .inList e items => aggregates e || aggregatesAny items
  | .inQuery e _ => aggregates e
  | .like _ e pattern _ => aggregates e || aggregates pattern
  | .value _ => false
  | .column _ _ _ => false
  | .exists _ => false
  | .scalar _ => false
  | .raise _ => false

def aggregatesAny : List Expr → Bool
  | [] => false
  | e :: es => aggregates e || aggregatesAny es

def aggregatesOption : Option Expr → Bool
  | none => false
  | some e => aggregates e

def aggregatesArms : List (Expr × Expr) → Bool
  | [] => false
  | (a, b) :: rest => aggregates a || aggregates b || aggregatesArms rest

end

def explicitCollation? : Expr → Option Collation
  | .collate _ name => some ((Collation.ofName? name).getD .binary)
  | .unary _ e => explicitCollation? e
  | .cast e _ => explicitCollation? e
  | .binary _ a b => (explicitCollation? a).or (explicitCollation? b)
  | _ => none

def columnCollation? (s : Scope) : Expr → Option Collation
  | .column table name double => (reference? s table name double).map fun (h, _) => h.collation
  | .unary .plus e => columnCollation? s e
  | .cast e _ => columnCollation? s e
  | _ => none

def collationOf (s : Scope) (e : Expr) : Collation :=
  ((explicitCollation? e).or (columnCollation? s e)).getD .binary

/-- How two expressions are compared: what is written goes before what columns say, and the left one
before the right one. -/
def comparing (s : Scope) (a b : Expr) : Collation :=
  ((explicitCollation? a).or ((explicitCollation? b).or
    ((columnCollation? s a).or (columnCollation? s b)))).getD .binary

def masterName (name : String) : Bool :=
  name == "sqlite_master" || name == "sqlite_schema"

def masterHeaders : List Header :=
  [⟨"type", some .text, .binary⟩, ⟨"name", some .text, .binary⟩, ⟨"tbl_name", some .text, .binary⟩,
    ⟨"rootpage", some .integer, .binary⟩, ⟨"sql", some .text, .binary⟩]

def itemName (e : Expr) (given : Option String) : String :=
  match given, e with
  | some a, _ => a
  | none, .column _ name _ => name.toLower
  | none, _ => ""

def renamed (names : Option (List String)) (hs : List Header) : Option (List Header) :=
  match names with
  | none => some hs
  | some ns =>
      if ns.length = hs.length then some (hs.zipWith (fun h n => { h with name := n }) ns)
      else none

mutual

def affinityOf (c : Context) : Nat → Scope → Expr → Option Affinity
  | 0, _, _ => none
  | fuel + 1, s, e =>
      match e with
      | .column table name double => (reference? s table name double).bind fun (h, _) => h.affinity
      | .cast _ type => some (Affinity.ofType type)
      | .collate e _ => affinityOf c fuel s e
      | .scalar q =>
          match headers? c fuel s q with
          | some (h :: _) => h.affinity
          | _ => none
      | _ => none

def headers? (c : Context) : Nat → Scope → Query → Option (List Header)
  | 0, _, _ => none
  | fuel + 1, s, .mk first rest order limit offset => do
      let hs ← coreHeaders? c fuel s first
      let counts ← rest.mapM fun (_, core) => (coreHeaders? c fuel s core).map List.length
      guard (counts.all (· == hs.length))
      guard (limit.all (isResolved c fuel s) && offset.all (isResolved c fuel s))
      if rest.isEmpty then
        let inner ← coreScope? c fuel s first
        guard (order.all fun (e, _) => isOrdering c fuel inner hs e)
      return hs

def isOrdering (c : Context) : Nat → Scope → List Header → Expr → Bool
  | 0, _, _, _ => false
  | fuel + 1, s, hs, e =>
      match e with
      | .value (.integer n) => 1 ≤ n && n ≤ hs.length
      | .column none name double =>
          hs.any (·.name == name.toLower) || (reference? s none name double).isSome
      | e => isResolved c fuel s e

def coreScope? (c : Context) : Nat → Scope → Core → Option Scope
  | 0, _, _ => none
  | fuel + 1, s, core =>
      match core with
      | .values _ => some s
      | .select _ _ sources _ _ _ => (sources.mapM (blank? c fuel s)).map fun fs => fs :: s

def coreHeaders? (c : Context) : Nat → Scope → Core → Option (List Header)
  | 0, _, _ => none
  | fuel + 1, s, core =>
      match core with
      | .values rows => do
          let width := (rows.headD []).length
          guard (rows.all fun es => es.length == width && es.all (isResolved c fuel s))
          return (List.range width).map fun i => { name := "column" ++ Text.natText (i + 1) }
      | .select _ results sources condition group having => do
          let frames ← sources.mapM (blank? c fuel s)
          let inner := frames :: s
          guard (sources.all fun
            | .table _ _ _ on => on.all (isResolved c fuel inner)
            | .query _ _ _ on => on.all (isResolved c fuel inner))
          let hs ← results.mapM (itemHeaders? c fuel inner frames)
          guard (condition.all (isResolved c fuel inner))
          guard (group.all fun e => isOrdering c fuel inner hs.flatten e)
          guard (having.all fun e => isOrdering c fuel inner hs.flatten e)
          return hs.flatten

def itemHeaders? (c : Context) : Nat → Scope → List Frame → Shown → Option (List Header)
  | 0, _, _, _ => none
  | fuel + 1, s, frames, item =>
      match item with
      | .all => if frames.isEmpty then none else some (frames.flatMap Frame.headers)
      | .allOf name => (frames.find? fun f => f.name == name).map Frame.headers
      | .expr e given =>
          if isResolved c fuel s e then
            some [⟨itemName e given, affinityOf c fuel s e, collationOf s e⟩]
          else none

def blank? (c : Context) : Nat → Scope → Source → Option Frame
  | 0, _, _ => none
  | fuel + 1, s, source =>
      match source with
      | .query q given _ _ => do
          let hs ← headers? c fuel s q
          return ⟨given.getD "", hs, hs.map fun _ => .null, none⟩
      | .table name given _ _ =>
          match c.schema.table? name, c.schema.view? name with
          | some t, _ => some (t.blank (given.getD name))
          | none, some v => do
              let hs ← renamed v.columns (← headers? c fuel [] (← v.query))
              return ⟨given.getD name, hs, hs.map fun _ => .null, none⟩
          | none, none =>
              if masterName name then
                some ⟨given.getD name, masterHeaders, masterHeaders.map fun _ => .null, some .null⟩
              else none

def isResolved (c : Context) : Nat → Scope → Expr → Bool
  | 0, _, _ => false
  | fuel + 1, s, e =>
      match e with
      | .value _ => true
      | .column table name double => (reference? s table name double).isSome
      | .unary _ e => isResolved c fuel s e
      | .binary _ a b => isResolved c fuel s a && isResolved c fuel s b
      | .collate e name => (Collation.ofName? name).isSome && isResolved c fuel s e
      | .cast e _ => isResolved c fuel s e
      | .call name args star _ =>
          (isAggregate name args.length star || (!star && isFunction name args.length)) &&
            args.all (isResolved c fuel s)
      | .choose base arms other =>
          base.all (isResolved c fuel s) && other.all (isResolved c fuel s) &&
            arms.all fun (a, b) => isResolved c fuel s a && isResolved c fuel s b
      | .between e low high =>
          isResolved c fuel s e && isResolved c fuel s low && isResolved c fuel s high
      | .inList e items => isResolved c fuel s e && items.all (isResolved c fuel s)
      | .inQuery e q =>
          isResolved c fuel s e && (headers? c fuel s q).any fun hs => hs.length == 1
      | .like name e pattern escape =>
          (name == "like" || (name == "glob" && escape.isNone)) && isResolved c fuel s e &&
            isResolved c fuel s pattern && escape.all (isResolved c fuel s)
      | .exists q => (headers? c fuel s q).isSome
      | .scalar q => (headers? c fuel s q).any fun hs => hs.length == 1
      | .raise _ => true

end

end Predication.Catalog
