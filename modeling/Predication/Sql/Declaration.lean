import Predication.Sql.Parse

namespace Predication.Sql

inductive Action where
  | nothing
  | restrict
  | setNull
  | setDefault
  | cascade
  deriving DecidableEq

/-- The table that a foreign key refers to; without columns it refers to the primary key. A deferred
one is looked at when the transaction ends. -/
structure Reference where
  table : String
  columns : List String
  onDelete : Action := .nothing
  onUpdate : Action := .nothing
  deferred : Bool := false

structure Part where
  expr : Expr
  collation : Option String := none
  descending : Bool := false

inductive Constraint where
  | primaryKey (parts : List Part) (conflict : Option Conflict) (autoincrement : Bool)
  | unique (parts : List Part) (conflict : Option Conflict)
  | check (e : Expr)
  | foreignKey (columns : List String) (target : Reference)

structure ColumnDeclaration where
  name : String
  type : String
  collation : Option String := none
  notNull : Option Conflict := none
  default : Option Expr := none
  generated : Option (Expr × Bool) := none

/-- The constraints come in the order of the text, those of the columns first. -/
structure TableDeclaration where
  name : String
  columns : List ColumnDeclaration
  constraints : List Constraint
  withoutNumbers : Bool
  strict : Bool

structure IndexDeclaration where
  name : String
  table : String
  parts : List Part
  unique : Bool
  condition : Option Expr

structure ViewDeclaration where
  name : String
  columns : Option (List String)
  query : Query

inductive Moment where
  | before
  | after
  | instead
  deriving DecidableEq

inductive Event where
  | insert
  | update (columns : List String)
  | delete
  deriving DecidableEq

structure TriggerDeclaration where
  name : String
  table : String
  moment : Moment
  event : Event
  condition : Option Expr
  body : List Statement

inductive Declaration where
  | table (d : TableDeclaration)
  | index (d : IndexDeclaration)
  | view (d : ViewDeclaration)
  | trigger (d : TriggerDeclaration)
  | module (name : String)

namespace Parse

def bound : Parse Nat := do
  return 4 * (← get).length + 16

def expression : Parse Expr := do
  expr (← bound) 1

def onConflict : Parse (Option Conflict) := do
  if ← words? ["on", "conflict"] then return some (← resolution) else return none

def sortOrder : Parse Bool := do
  if ← word? "asc" then return false else word? "desc"

def part : Parse Part := do
  let e ← expression
  let descending ← sortOrder
  if ← word? "nulls" then
    let _ ← next
  match e with
  | .collate e c => return ⟨e, some c, descending⟩
  | e => return ⟨e, none, descending⟩

def actionOf : Parse Action := do
  if ← words? ["set", "null"] then return .setNull
  else if ← words? ["set", "default"] then return .setDefault
  else if ← word? "cascade" then return .cascade
  else if ← word? "restrict" then return .restrict
  else
    word "no"
    word "action"
    return .nothing

def referenceClauses : Nat → Reference → Parse Reference
  | 0, _ => failure
  | fuel + 1, r => do
      if ← words? ["on", "delete"] then
        referenceClauses fuel { r with onDelete := ← actionOf }
      else if ← words? ["on", "update"] then
        referenceClauses fuel { r with onUpdate := ← actionOf }
      else if ← words? ["on", "insert"] then
        let _ ← actionOf
        referenceClauses fuel r
      else if ← word? "match" then
        let _ ← name
        referenceClauses fuel r
      else
        let no ← words? ["not", "deferrable"]
        if no || (← word? "deferrable") then
          if ← word? "initially" then
            if ← word? "deferred" then referenceClauses fuel { r with deferred := !no }
            else
              word "immediate"
              referenceClauses fuel { r with deferred := false }
          else referenceClauses fuel { r with deferred := false }
        else return r

def target : Parse Reference := do
  let table ← name
  let columns ← if ← mark? "(" then
      let cs ← listOf name
      mark ")"
      pure cs
    else pure []
  referenceClauses (← bound) { table := table, columns := columns }

/-- A literal as the default of a column; a name stands for its text. -/
def defaultValue : Parse Expr := do
  match ← peek? with
  | some (.mark "(") => parens expression
  | some (.mark "+") | some (.mark "-") => expr (← bound) operand
  | some (.word w) =>
      let _ ← next
      if w == "null" then return .value .null
      else if isClock w then return .call w [] false false
      else if w == "true" || w == "false" then return .value (.ofBool (w == "true"))
      else return .value (.ofString w)
  | some (.quoted q _) =>
      let _ ← next
      return .value (.ofString q)
  | _ => expr (← bound) operand

def columnConstraints : Nat → ColumnDeclaration → List Constraint →
    Parse (ColumnDeclaration × List Constraint)
  | 0, _, _ => failure
  | fuel + 1, c, found => do
      let self : Expr := .column none c.name false
      if ← word? "constraint" then
        let _ ← name
        columnConstraints fuel c found
      else if ← word? "default" then
        columnConstraints fuel { c with default := some (← defaultValue) } found
      else if ← word? "null" then
        let _ ← onConflict
        columnConstraints fuel c found
      else if ← words? ["not", "null"] then
        let conflict ← onConflict
        columnConstraints fuel { c with notNull := some (conflict.getD .abort) } found
      else if ← words? ["primary", "key"] then
        let descending ← sortOrder
        let conflict ← onConflict
        let autoincrement ← word? "autoincrement"
        columnConstraints fuel c
          (.primaryKey [⟨self, none, descending⟩] conflict autoincrement :: found)
      else if ← word? "unique" then
        let conflict ← onConflict
        columnConstraints fuel c (.unique [⟨self, none, false⟩] conflict :: found)
      else if ← word? "check" then
        let e ← parens expression
        let _ ← onConflict
        columnConstraints fuel c (.check e :: found)
      else if ← word? "collate" then
        columnConstraints fuel { c with collation := some (← name) } found
      else if ← word? "references" then
        columnConstraints fuel c (.foreignKey [c.name] (← target) :: found)
      else if (← words? ["generated", "always", "as"]) || (← word? "as") then
        let e ← parens expression
        let stored ← word? "stored"
        let _ ← if stored then pure false else word? "virtual"
        columnConstraints fuel { c with generated := some (e, stored) } found
      else return (c, found.reverse)

def columnDeclaration : Parse (ColumnDeclaration × List Constraint) := do
  let column ← name
  let type ← typeName
  columnConstraints (← bound) { name := column, type := type } []

def constraint? : Parse (Option Constraint) := do
  if ← word? "constraint" then
    let _ ← name
  if ← words? ["primary", "key"] then
    mark "("
    let parts ← listOf part
    let autoincrement ← word? "autoincrement"
    mark ")"
    let parts := match parts with
      | [p] => [{ p with descending := false }]
      | ps => ps
    return some (.primaryKey parts (← onConflict) autoincrement)
  else if ← word? "unique" then
    let parts ← parens (listOf part)
    return some (.unique parts (← onConflict))
  else if ← word? "check" then
    let e ← parens expression
    let _ ← onConflict
    return some (.check e)
  else if ← words? ["foreign", "key"] then
    let columns ← parens (listOf name)
    word "references"
    return some (.foreignKey columns (← target))
  else return none

/-- The columns of a table and then its constraints; between constraints a comma can be missing. -/
def members : Nat → Parse (List ColumnDeclaration × List Constraint)
  | 0 => failure
  | fuel + 1 => do
      match ← constraint? with
      | some constraint =>
          let _ ← mark? ","
          if (← peek?) = some (.mark ")") then return ([], [constraint])
          else
            let (columns, later) ← members fuel
            return (columns, constraint :: later)
      | none =>
          let (column, found) ← columnDeclaration
          if ← mark? "," then
            let (columns, later) ← members fuel
            return (column :: columns, found ++ later)
          else
            match ← constraint? with
            | none => return ([column], found)
            | some constraint =>
                let _ ← mark? ","
                if (← peek?) = some (.mark ")") then return ([column], found ++ [constraint])
                else
                  let (columns, later) ← members fuel
                  return (column :: columns, found ++ constraint :: later)

def tableOptions : Nat → Bool → Bool → Parse (Bool × Bool)
  | 0, _, _ => failure
  | fuel + 1, withoutNumbers, strict => do
      if ← words? ["without", "rowid"] then
        let _ ← mark? ","
        tableOptions fuel true strict
      else if ← word? "strict" then
        let _ ← mark? ","
        tableOptions fuel withoutNumbers true
      else return (withoutNumbers, strict)

def ifMissing : Parse Unit := do
  let _ ← words? ["if", "not", "exists"]

def tableDeclaration : Parse TableDeclaration := do
  ifMissing
  let table ← qualifiedName
  mark "("
  let (columns, constraints) ← members (← bound)
  mark ")"
  let (withoutNumbers, strict) ← tableOptions (← bound) false false
  return ⟨table, columns, constraints, withoutNumbers, strict⟩

def indexDeclaration (unique : Bool) : Parse IndexDeclaration := do
  ifMissing
  let index ← qualifiedName
  word "on"
  let table ← name
  let parts ← parens (listOf part)
  let condition ← if ← word? "where" then some <$> expression else pure none
  return ⟨index, table, parts, unique, condition⟩

def viewDeclaration : Parse ViewDeclaration := do
  ifMissing
  let view ← qualifiedName
  let columns ← if ← mark? "(" then
      let cs ← listOf name
      mark ")"
      pure (some cs)
    else pure none
  word "as"
  return ⟨view, columns, ← query (← bound)⟩

def moment : Parse Moment := do
  if ← word? "before" then return .before
  else if ← word? "after" then return .after
  else if ← words? ["instead", "of"] then return .instead
  else return .before

def event : Parse Event := do
  if ← word? "insert" then return .insert
  else if ← word? "delete" then return .delete
  else
    word "update"
    if ← word? "of" then return .update (← listOf name) else return .update []

def body : Nat → Parse (List Statement)
  | 0 => failure
  | fuel + 1 => do
      let s ← statement (← bound)
      mark ";"
      if ← word? "end" then return [s] else return s :: (← body fuel)

def triggerDeclaration : Parse TriggerDeclaration := do
  ifMissing
  let trigger ← qualifiedName
  let moment ← moment
  let event ← event
  word "on"
  let table ← qualifiedName
  let _ ← words? ["for", "each", "row"]
  let condition ← if ← word? "when" then some <$> expression else pure none
  word "begin"
  return ⟨trigger, table, moment, event, condition, ← body (← bound)⟩

def declaration : Parse Declaration := do
  word "create"
  let _ ← word? "temp"
  let _ ← word? "temporary"
  if ← words? ["virtual", "table"] then
    ifMissing
    return .module (← qualifiedName)
  else if ← word? "table" then return .table (← tableDeclaration)
  else if ← words? ["unique", "index"] then return .index (← indexDeclaration true)
  else if ← word? "index" then return .index (← indexDeclaration false)
  else if ← word? "view" then return .view (← viewDeclaration)
  else
    word "trigger"
    return .trigger (← triggerDeclaration)

end Parse

def Declaration.read? (sql : String) : Option Declaration := do
  let (d, rest) ← Parse.declaration.run (← tokenize? sql)
  match d, rest with
  | .module name, _ => return .module name
  | d, [] => return d
  | d, .mark ";" :: _ => return d
  | _, _ => none

end Predication.Sql
