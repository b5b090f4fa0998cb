import Predication.Catalog.Frame
import Predication.Sql.Operator

namespace Predication.Catalog

open Sql

/-- How a statement stops: it skips a row, or it fails and keeps what it did, or it fails and takes
that back. -/
inductive Fault where
  | ignore
  | fail
  | abort
  deriving DecidableEq

abbrev Answer := Except Fault

def faultOf : Raise → Fault
  | .ignore => .ignore
  | .fail => .fail
  | .abort => .abort

structure Result where
  values : List Value
  keys : List Value

def compareKeys : List (Collation × Bool) → List Value → List Value → Ordering
  | (collation, descending) :: parts, a :: as, b :: bs =>
      let first := a.compare collation b
      (if descending then first.swap else first).then (compareKeys parts as bs)
  | _, a :: as, b :: bs => (a.compare .binary b).then (compareKeys [] as bs)
  | _, [], [] => .eq
  | _, [], _ :: _ => .lt
  | _, _ :: _, [] => .gt

def sameValues (a b : List Value) : Bool :=
  compareKeys [] a b == .eq

def distinctResults (rs : List Result) : List Result :=
  rs.foldl (fun found r =>
    if found.any fun q => sameValues q.values r.values then found else found ++ [r]) []

def sortedResults (parts : List (Collation × Bool)) (rs : List Result) : List Result :=
  rs.mergeSort fun a b => compareKeys parts a.keys b.keys != .gt

def grouped {α : Type} (parts : List (Collation × Bool)) (rows : List (List Value × α)) :
    List (List α) :=
  let sorted := rows.mergeSort fun a b => compareKeys parts a.1 b.1 != .gt
  let groups := sorted.foldl (fun found (keys, a) =>
    match found with
    | (last, group) :: rest =>
        if compareKeys parts last keys == .eq then (last, a :: group) :: rest
        else (keys, [a]) :: (last, group) :: rest
    | [] => [(keys, [a])]) ([] : List (List Value × List α))
  groups.reverse.map fun (_, group) => group.reverse

def combine (kind : Compound) (old new : List Result) : List Result :=
  let has (rs : List Result) (r : Result) : Bool := rs.any fun q => sameValues q.values r.values
  let sorted (rs : List Result) : List Result :=
    (distinctResults rs).mergeSort fun a b => compareKeys [] a.values b.values != .gt
  match kind with
  | .unionAll => old ++ new
  | .union => sorted (old ++ new)
  | .except => sorted (old.filter fun r => !has new r)
  | .intersect => sorted (old.filter (has new))

def sumValues (vs : List Value) : Answer Value :=
  let numbers := vs.map Value.number
  if numbers.all fun | .integer _ => true | _ => false then
    let total := (numbers.map Value.whole).foldl (· + ·) 0
    if fitsInteger total then .ok (.integer total) else .error .abort
  else .ok (ofFloat ((vs.map Value.float).foldl (· + ·) 0))

def aggregate (name : String) (star distinct : Bool) (collation : Collation)
    (rows : List (List Value)) : Answer Value :=
  let firsts := (rows.map fun r => r.headD .null).filter fun v => !v.isNull
  let vs :=
    if distinct then
      firsts.foldl (fun found v =>
        if found.any fun u => u.compare collation v == .eq then found else found ++ [v]) []
    else firsts
  match name with
  | "count" => .ok (.integer (if star then rows.length else vs.length))
  | "sum" => if vs.isEmpty then .ok .null else sumValues vs
  | "total" => .ok (ofFloat ((vs.map Value.float).foldl (· + ·) 0))
  | "avg" =>
      .ok (if vs.isEmpty then .null
        else ofFloat ((vs.map Value.float).foldl (· + ·) 0 / Float.ofNat vs.length))
  | "max" => .ok (extreme .gt collation vs)
  | "min" => .ok (extreme .lt collation vs)
  | _ =>
      let separator := match rows.head? with
        | some (_ :: s :: _) => s.textBytes
        | _ => [44]
      .ok (if vs.isEmpty then .null else .text (joinTexts separator vs))

def member (a : Option Affinity) (collation : Collation) (v : Value) (items : List Value) : Value :=
  if items.isEmpty then .ofBool false
  else if v.isNull then .null
  else if items.any fun w => !w.isNull && compareAligned a collation v w == .eq then .ofBool true
  else if items.any Value.isNull then .null
  else .ofBool false

def masterRows (c : Catalog) : List (List Value) :=
  c.items.map fun i =>
    let kind := match i.kind with
      | .table => "table"
      | .index => "index"
      | .view => "view"
      | .trigger => "trigger"
    [.ofString kind, .ofString i.name, .ofString i.table, .integer 0,
      match i.sql with
      | some sql => .ofString sql
      | none => .null]

def depth : Nat := 4000

mutual

def eval (c : Context) : Nat → Scope → Option (List Scope) → Expr → Answer Value
  | 0, _, _, _ => .error .abort
  | fuel + 1, s, group, e =>
      match e with
      | .value v => .ok v
      | .column table name double =>
          match reference? s table name double with
          | some (_, v) => .ok v
          | none => .error .abort
      | .unary op e => do return applyUnary op (← eval c fuel s group e)
      | .binary .logicalAnd a b => do
          let x ← eval c fuel s group a
          if x.truth? = some false then return .ofBool false
          else return ofTruth (logicalAnd x.truth? (← eval c fuel s group b).truth?)
      | .binary .logicalOr a b => do
          let x ← eval c fuel s group a
          if x.truth? = some true then return .ofBool true
          else return ofTruth (logicalOr x.truth? (← eval c fuel s group b).truth?)
      | .binary op a b => do
          let x ← eval c fuel s group a
          let y ← eval c fuel s group b
          if op.isComparison then
            let affinity := commonAffinity (affinityOf c fuel s a) (affinityOf c fuel s b)
            return compareValues op affinity (comparing s a b) x y
          else return calculate op x y
      | .collate e _ => eval c fuel s group e
      | .cast e type => do return castTo type (← eval c fuel s group e)
      | .call "coalesce" args _ _ => firstValue c fuel s group args
      | .call "ifnull" args _ _ => firstValue c fuel s group args
      | .call "iif" [condition, a, b] _ _ => do
          let v ← eval c fuel s group condition
          eval c fuel s group (if v.truth? = some true then a else b)
      | .call name args star distinct =>
          let collation := ((args.head?.map (collationOf s)).getD .binary)
          match isAggregate name args.length star, group with
          | true, some scopes => do
              let rows ← scopes.mapM fun inner => args.mapM (eval c fuel inner none)
              aggregate name star distinct collation rows
          | _, _ => do
              let vs ← args.mapM (eval c fuel s group)
              match callFunction? collation name vs with
              | some v => return v
              | none => throw .abort
      | .choose base arms other => do
          match base with
          | none =>
              match ← firstArm c fuel s group none arms with
              | some v => return v
              | none => evalOption c fuel s group other
          | some b =>
              let v ← eval c fuel s group b
              match ← firstArm c fuel s group (some (b, v)) arms with
              | some v => return v
              | none => evalOption c fuel s group other
      | .between e low high => do
          let v ← eval c fuel s group e
          let l ← eval c fuel s group low
          let h ← eval c fuel s group high
          let own := affinityOf c fuel s e
          let above := compareValues .greaterOrEqual
            (commonAffinity own (affinityOf c fuel s low)) (comparing s e low) v l
          let below := compareValues .lessOrEqual
            (commonAffinity own (affinityOf c fuel s high)) (comparing s e high) v h
          return ofTruth (logicalAnd above.truth? below.truth?)
      | .inList e items => do
          let v ← eval c fuel s group e
          let vs ← items.mapM (eval c fuel s group)
          return member (affinityOf c fuel s e) (collationOf s e) v vs
      | .inQuery e q => do
          let v ← eval c fuel s group e
          let rows ← query c fuel s q
          let other := (headers? c fuel s q).bind fun hs => hs.head?.bind Header.affinity
          return member (commonAffinity (affinityOf c fuel s e) other) (collationOf s e) v
            (rows.map fun r => r.headD .null)
      | .like name e pattern escape => do
          let v ← eval c fuel s group e
          let p ← eval c fuel s group pattern
          let args ← match escape with
            | none => pure [p, v]
            | some x => do pure [p, v, ← eval c fuel s group x]
          match callFunction? .binary name args with
          | some v => return v
          | none => throw .abort
      | .exists q => do return .ofBool (!(← query c fuel s q).isEmpty)
      | .scalar q => do
          let rows ← query c fuel s q
          return (rows.headD []).headD .null
      | .raise kind => .error (faultOf kind)

def evalOption (c : Context) : Nat → Scope → Option (List Scope) → Option Expr → Answer Value
  | 0, _, _, _ => .error .abort
  | fuel + 1, s, group, e =>
      match e with
      | none => .ok .null
      | some e => eval c fuel s group e

def firstValue (c : Context) : Nat → Scope → Option (List Scope) → List Expr → Answer Value
  | 0, _, _, _ => .error .abort
  | fuel + 1, s, group, es =>
      match es with
      | [] => .ok .null
      | e :: es => do
          let v ← eval c fuel s group e
          if v.isNull then firstValue c fuel s group es else return v

def firstArm (c : Context) :
    Nat → Scope → Option (List Scope) → Option (Expr × Value) → List (Expr × Expr) →
      Answer (Option Value)
  | 0, _, _, _, _ => .error .abort
  | fuel + 1, s, group, base, arms =>
      match arms with
      | [] => .ok none
      | (condition, result) :: rest => do
          let v ← eval c fuel s group condition
          let holds := match base with
            | none => v.truth? == some true
            | some (b, w) =>
                let affinity :=
                  commonAffinity (affinityOf c fuel s b) (affinityOf c fuel s condition)
                (compareValues .equal affinity (comparing s b condition) w v).truth? == some true
          if holds then return some (← eval c fuel s group result)
          else firstArm c fuel s group base rest

def completed (c : Context) : Nat → Table → List Value → List Value → Answer (List Value)
  | 0, _, _, _ => .error .abort
  | fuel + 1, t, id, values =>
      if !t.hasGenerated then .ok values
      else
        t.columns.foldlM (fun values _ => do
          let s : Scope := [[t.frame t.name id values]]
          (t.columns.zip values).mapM fun (column, v) =>
            match column.generated with
            | none => pure v
            | some (e, _) => do return column.affinity.apply (← eval c fuel s none e)) values

def tableFrames (c : Context) : Nat → Table → String → Answer (List Frame)
  | 0, _, _ => .error .abort
  | fuel + 1, t, name =>
      match c.catalog.stored? .table t.name with
      | none => .error .abort
      | some stored =>
          stored.mapM fun (id, values) => do
            return t.frame name id (← completed c fuel t id values)

def sourceFrames (c : Context) : Nat → Scope → Source → Answer (List Frame)
  | 0, _, _ => .error .abort
  | fuel + 1, s, source =>
      match blank? c fuel s source with
      | none => .error .abort
      | some blank =>
          let frames (rows : List (List Value)) : List Frame :=
            rows.map fun vs => { blank with values := vs }
          match source with
          | .query q _ _ _ => do return frames (← query c fuel s q)
          | .table name _ _ _ =>
              match c.schema.table? name, (c.schema.view? name).bind View.query with
              | some t, _ => tableFrames c fuel t blank.name
              | none, some q => do return frames (← query c fuel [] q)
              | none, none => .ok (frames (masterRows c.catalog))

def joined (c : Context) :
    Nat → Scope → List (List Frame) → List Source → Answer (List (List Frame))
  | 0, _, _, _ => .error .abort
  | fuel + 1, s, rows, sources =>
      match sources with
      | [] => .ok rows
      | source :: rest => do
          let frames ← sourceFrames c fuel s source
          let (kind, condition) := match source with
            | .table _ _ kind condition => (kind, condition)
            | .query _ _ kind condition => (kind, condition)
          let next ← rows.mapM fun row => do
            let fitting ← frames.filterM fun f => do
              match condition with
              | none => return true
              | some e =>
                  return (← eval c fuel ((row ++ [f]) :: s) none e).truth? == some true
            match fitting, kind, blank? c fuel s source with
            | [], .left, some blank => return [row ++ [blank]]
            | fs, _, _ => return fs.map fun f => row ++ [f]
          joined c fuel s next.flatten rest

def sortKey (c : Context) :
    Nat → Scope → Option (List Scope) → List Header → List Value → Expr → Answer Value
  | 0, _, _, _, _, _ => .error .abort
  | fuel + 1, s, group, hs, values, e =>
      match e with
      | .value (.integer n) => .ok (values.getD (n.toNat - 1) .null)
      | .column none name _ =>
          match (hs.zip values).find? fun (h, _) => h.name == name.toLower with
          | some (_, v) => .ok v
          | none => eval c fuel s group e
      | e => eval c fuel s group e

def shownValues (c : Context) : Nat → Scope → Option (List Scope) → List Shown → Answer (List Value)
  | 0, _, _, _ => .error .abort
  | fuel + 1, s, group, items => do
      let parts ← items.mapM fun
        | .all => pure ((s.headD []).flatMap Frame.values)
        | .allOf name =>
            pure ((((s.headD []).find? fun f => f.name == name).map Frame.values).getD [])
        | .expr e _ => do return [← eval c fuel s group e]
      return parts.flatten

def core (c : Context) : Nat → Scope → List Expr → Core → Answer (List Result)
  | 0, _, _, _ => .error .abort
  | fuel + 1, s, order, simple =>
      match simple with
      | .values rows => rows.mapM fun es => do return ⟨← es.mapM (eval c fuel s none), []⟩
      | .select distinct results sources condition group having => do
          let hs := (coreHeaders? c fuel s simple).getD []
          let rows ← joined c fuel s [[]] sources
          let scopes := rows.map fun frames => frames :: s
          let chosen ← scopes.filterM fun inner => do
            return (← condition.mapM (eval c fuel inner none)).all fun v => v.truth? == some true
          let isGrouped := !group.isEmpty || having.any aggregates ||
            results.any fun
              | .expr e _ => aggregates e
              | _ => false
          let blank : Scope := (sources.filterMap (blank? c fuel s)) :: s
          let units : List (Scope × Option (List Scope)) ←
            if !isGrouped then pure (chosen.map fun inner => (inner, none))
            else if group.isEmpty then pure [(chosen.getLastD blank, some chosen)]
            else do
              let keyed ← chosen.mapM fun inner => do
                let values ← (results.mapM fun
                  | .expr e _ => if aggregates e then pure .null else eval c fuel inner none e
                  | _ => pure .null)
                return (← group.mapM (sortKey c fuel inner none hs values), inner)
              let parts := group.map fun e => (collationOf blank e, false)
              pure ((grouped parts keyed).map fun g => (g.headD blank, some g))
          let kept ← units.filterM fun (inner, g) => do
            match having with
            | none => return true
            | some e => return (← eval c fuel inner g e).truth? == some true
          let found ← kept.mapM fun (inner, g) => do
            let values ← shownValues c fuel inner g results
            return (⟨values, ← order.mapM (sortKey c fuel inner g hs values)⟩ : Result)
          return if distinct then distinctResults found else found

def query (c : Context) : Nat → Scope → Query → Answer (List (List Value))
  | 0, _, _ => .error .abort
  | fuel + 1, s, .mk first rest order limit offset => do
      let hs := (coreHeaders? c fuel s first).getD []
      let start ← core c fuel s (if rest.isEmpty then order.map Prod.fst else []) first
      let all ← rest.foldlM (fun found (kind, next) => do
        return combine kind found (← core c fuel s [] next)) start
      let inner := (coreScope? c fuel s first).getD s
      let parts := order.map fun (e, descending) => (collationOf inner e, descending)
      let all ← if rest.isEmpty then pure all
        else all.mapM fun r => do
          return { r with keys := ← order.mapM fun (e, _) => sortKey c fuel s none hs r.values e }
      let sorted := if order.isEmpty then all else sortedResults parts all
      let skipped ← match offset with
        | none => pure sorted
        | some e => do pure (sorted.drop (← eval c fuel s none e).whole.toNat)
      let limited ← match limit with
        | none => pure skipped
        | some e => do
            let n := (← eval c fuel s none e).whole
            pure (if n < 0 then skipped else skipped.take n.toNat)
      return limited.map Result.values

end

end Predication.Catalog
