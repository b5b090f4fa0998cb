import Predication.Sql.Expr
import Predication.Sql.Number
import Predication.Sql.Token

namespace Predication.Sql

abbrev Parse (α : Type) := StateT (List Token) Option α

namespace Parse

def peek? : Parse (Option Token) :=
  fun ts => some (ts.head?, ts)

def next : Parse Token := fun
  | t :: ts => some (t, ts)
  | [] => none

def take? (t : Token) : Parse Bool := fun
  | u :: ts => if t = u then some (true, ts) else some (false, u :: ts)
  | [] => some (false, [])

def word? (w : String) : Parse Bool :=
  take? (.word w)

def mark? (m : String) : Parse Bool :=
  take? (.mark m)

def words? (ws : List String) : Parse Bool := fun ts =>
  if (ws.map Token.word).isPrefixOf ts then some (true, ts.drop ws.length) else some (false, ts)

def require (p : Parse Bool) : Parse Unit := do
  if !(← p) then failure

def word (w : String) : Parse Unit :=
  require (word? w)

def mark (m : String) : Parse Unit :=
  require (mark? m)

def reserved : List String :=
  ["add", "all", "alter", "and", "as", "autoincrement", "between", "case", "check", "collate",
   "commit", "constraint", "create", "default", "deferrable", "delete", "distinct", "drop", "else",
   "escape", "except", "exists", "foreign", "from", "group", "having", "in", "index", "insert",
   "intersect", "into", "is", "isnull", "join", "limit", "not", "nothing", "notnull", "null", "on",
   "or", "order", "primary", "references", "returning", "select", "set", "table", "then", "to",
   "transaction", "union", "unique", "update", "using", "values", "when", "where"]

/-- The words that start what follows a source or a shown column, and so do not name it. -/
def reservedNames : List String :=
  reserved ++ ["left", "right", "inner", "cross", "natural", "full", "outer", "window", "indexed"]

def name : Parse String := do
  match ← next with
  | .word w => if reserved.contains w then failure else return w
  | .quoted q _ => return q.toLower
  | .text s => return s.toLower
  | _ => failure

def qualifiedName : Parse String := do
  let first ← name
  if ← mark? "." then name else return first

def givenName? : Parse (Option String) := do
  if ← word? "as" then return some (← name)
  else
    match ← peek? with
    | some (.word w) => if reservedNames.contains w then return none else return some (← name)
    | some (.quoted _ _) => return some (← name)
    | some (.text _) => return some (← name)
    | _ => return none

def commas {α : Type} (p : Parse α) : Nat → Parse (List α)
  | 0 => failure
  | fuel + 1 => do
      let a ← p
      if ← mark? "," then return a :: (← commas p fuel) else return [a]

def listOf {α : Type} (p : Parse α) : Parse (List α) := do
  commas p ((← get).length + 1)

def parens {α : Type} (p : Parse α) : Parse α := do
  mark "("
  let a ← p
  mark ")"
  return a

def numberValue (s : String) : Value :=
  match s.toList with
  | '0' :: 'x' :: hex =>
      let n := hex.foldl (fun n c => 16 * n + (hexDigit? c).getD 0) 0
      .integer (if n < 0x8000000000000000 then n else (n : Int) - 0x10000000000000000)
  | _ =>
      match Numeral.read? (bytesOf s) with
      | some n => n.value
      | none => .null

def typeWords : Nat → Parse String
  | 0 => failure
  | fuel + 1 => do
      match ← peek? with
      | some (.word w) =>
          if reserved.contains w || w == "generated" then return ""
          else
            let _ ← next
            return w ++ " " ++ (← typeWords fuel)
      | some (.quoted q _) =>
          let _ ← next
          return q ++ " " ++ (← typeWords fuel)
      | some (.text s) =>
          let _ ← next
          return s ++ " " ++ (← typeWords fuel)
      | _ => return ""

def size : Parse String := do
  let _ ← mark? "+"
  let negative ← mark? "-"
  match ← next with
  | .number s => return (if negative then "-" ++ s else s)
  | .word w => return w
  | _ => failure

def withoutBlanks (s : String) : String :=
  let behind := s.toList.dropWhile Char.isWhitespace
  String.ofList (behind.reverse.dropWhile Char.isWhitespace).reverse

def typeName : Parse String := do
  let words ← typeWords ((← get).length + 1)
  let type := withoutBlanks words
  if !type.isEmpty && (← mark? "(") then
    let first ← size
    let second ← if ← mark? "," then (", " ++ ·) <$> size else pure ""
    mark ")"
    return type ++ "(" ++ first ++ second ++ ")"
  else return type

def raiseKind : Parse Raise := do
  match ← next with
  | .word "ignore" => return .ignore
  | .word "fail" =>
      mark ","
      let _ ← next
      return .fail
  | .word "abort" | .word "rollback" =>
      mark ","
      let _ ← next
      return .abort
  | _ => failure

def binaryOp? : Token → Option (Nat × BinaryOp)
  | .word "or" => some (1, .logicalOr)
  | .word "and" => some (2, .logicalAnd)
  | .mark "=" => some (4, .equal)
  | .mark "<>" => some (4, .unequal)
  | .mark "<" => some (5, .less)
  | .mark "<=" => some (5, .lessOrEqual)
  | .mark ">" => some (5, .greater)
  | .mark ">=" => some (5, .greaterOrEqual)
  | .mark "&" => some (7, .bitAnd)
  | .mark "|" => some (7, .bitOr)
  | .mark "<<" => some (7, .shiftLeft)
  | .mark ">>" => some (7, .shiftRight)
  | .mark "+" => some (8, .plus)
  | .mark "-" => some (8, .minus)
  | .mark "*" => some (9, .times)
  | .mark "/" => some (9, .divide)
  | .mark "%" => some (9, .remainder)
  | .mark "||" => some (10, .concat)
  | _ => none

def comparison : Nat := 4
def operand : Nat := 12

def isClock (w : String) : Bool :=
  w == "current_timestamp" || w == "current_date" || w == "current_time"

def negated (no : Bool) (e : Expr) : Expr :=
  if no then .unary .logicalNot e else e

mutual

def expr : Nat → Nat → Parse Expr
  | 0, _ => failure
  | fuel + 1, level => do
      let first ← primary fuel
      climb fuel level first

def climb : Nat → Nat → Expr → Parse Expr
  | 0, _, _ => failure
  | fuel + 1, level, left => do
      match ← peek? with
      | none => return left
      | some t =>
          match binaryOp? t with
          | some (binding, op) =>
              if binding < level then return left
              else
                let _ ← next
                let right ← expr fuel (binding + 1)
                climb fuel level (.binary op left right)
          | none =>
              if ← (if level ≤ 11 then word? "collate" else pure false) then
                climb fuel level (.collate left (← name))
              else if comparison < level then return left
              else
                match ← suffix? fuel left with
                | some e => climb fuel level e
                | none => return left

def suffix? : Nat → Expr → Parse (Option Expr)
  | 0, _ => failure
  | fuel + 1, left => do
      if ← word? "isnull" then return some (.binary .same left (.value .null))
      else if ← word? "notnull" then return some (.binary .different left (.value .null))
      else if ← words? ["not", "null"] then return some (.binary .different left (.value .null))
      else if ← word? "is" then
        let no ← word? "not"
        if ← word? "true" then return some (negated no (.unary .isTrue left))
        else if ← word? "false" then return some (negated no (.unary .isFalse left))
        else
          let distinct ← words? ["distinct", "from"]
          let right ← expr fuel 5
          return some (.binary (if no == distinct then .same else .different) left right)
      else
        let no ← notBefore ["between", "in", "like", "glob", "regexp", "match"]
        if ← word? "between" then
          let low ← expr fuel 5
          word "and"
          let high ← expr fuel 5
          return some (negated no (.between left low high))
        else if ← word? "in" then
          let e ← membership fuel left
          return some (negated no e)
        else
          match ← peek? with
          | some (.word w) =>
              if ["like", "glob", "regexp", "match"].contains w then
                let _ ← next
                let pattern ← expr fuel 5
                let escape ← if ← word? "escape" then some <$> expr fuel 7 else pure none
                return some (negated no (.like w left pattern escape))
              else return none
          | _ => return none

def notBefore (ws : List String) : Parse Bool := fun
  | .word "not" :: .word w :: ts =>
      if ws.contains w then some (true, .word w :: ts)
      else some (false, .word "not" :: .word w :: ts)
  | ts => some (false, ts)

def membership : Nat → Expr → Parse Expr
  | 0, _ => failure
  | fuel + 1, left => do
      if ← mark? "(" then
        if ← mark? ")" then return .inList left []
        else if ← startsQuery then
          let q ← query fuel
          mark ")"
          return .inQuery left q
        else
          let items ← listOf (expr fuel 1)
          mark ")"
          return .inList left items
      else
        let table ← qualifiedName
        return .inQuery left
          (.mk (.select false [.all] [.table table none .inner none] none [] none) [] [] none none)

def startsQuery : Parse Bool := do
  match ← peek? with
  | some (.word w) => return w == "select" || w == "values" || w == "with"
  | _ => return false

def primary : Nat → Parse Expr
  | 0 => failure
  | fuel + 1 => do
      match ← next with
      | .number s => return .value (numberValue s)
      | .text s => return .value (.ofString s)
      | .blob bytes => return .value (.blob bytes)
      | .mark "-" => return .unary .negate (← expr fuel operand)
      | .mark "+" => return .unary .plus (← expr fuel operand)
      | .mark "~" => return .unary .invert (← expr fuel operand)
      | .mark "(" =>
          if ← startsQuery then
            let q ← query fuel
            mark ")"
            return .scalar q
          else
            let e ← expr fuel 1
            mark ")"
            return e
      | .word "null" => return .value .null
      | .word "not" =>
          if ← word? "exists" then return .unary .logicalNot (.exists (← parens (query fuel)))
          else return .unary .logicalNot (← expr fuel 3)
      | .word "exists" => return .exists (← parens (query fuel))
      | .word "case" => chooser fuel
      | .word "cast" =>
          if ← mark? "(" then
            let e ← expr fuel 1
            word "as"
            let type ← typeName
            mark ")"
            return .cast e type
          else reference (.word "cast")
      | .word "raise" =>
          if ← mark? "(" then
            let kind ← raiseKind
            mark ")"
            return .raise kind
          else reference (.word "raise")
      | .word w =>
          if reserved.contains w then failure
          else if ← mark? "(" then call fuel w
          else if isClock w then return .call w [] false false
          else reference (.word w)
      | t => reference t

def reference (t : Token) : Parse Expr := do
  match t with
  | .word w => behind w false
  | .quoted q double => behind q double
  | _ => failure
where
  behind (first : String) (double : Bool) : Parse Expr := do
    if ← mark? "." then
      let second ← name
      if ← mark? "." then return .column (some second) (← name) false
      else return .column (some first.toLower) second false
    else return .column none (if double then first else first.toLower) double

def call : Nat → String → Parse Expr
  | 0, _ => failure
  | fuel + 1, f => do
      if ← mark? ")" then return .call f [] false false
      else if ← mark? "*" then
        mark ")"
        return .call f [] true false
      else
        let distinct ← word? "distinct"
        let args ← listOf (expr fuel 1)
        mark ")"
        return .call f args false distinct

def chooser : Nat → Parse Expr
  | 0 => failure
  | fuel + 1 => do
      let base ← match ← peek? with
        | some (.word "when") => pure none
        | _ => some <$> expr fuel 1
      let arms ← chooserArms fuel
      let other ← if ← word? "else" then some <$> expr fuel 1 else pure none
      word "end"
      return .choose base arms other

def chooserArms : Nat → Parse (List (Expr × Expr))
  | 0 => failure
  | fuel + 1 => do
      word "when"
      let condition ← expr fuel 1
      word "then"
      let result ← expr fuel 1
      match ← peek? with
      | some (.word "when") => return (condition, result) :: (← chooserArms fuel)
      | _ => return [(condition, result)]

def query : Nat → Parse Query
  | 0 => failure
  | fuel + 1 => do
      let first ← core fuel
      let rest ← compounds fuel
      let order ← if ← words? ["order", "by"] then listOf (ordering fuel) else pure []
      let limit ← if ← word? "limit" then some <$> expr fuel 1 else pure none
      let offset ←
        if limit.isSome then
          if ← word? "offset" then some <$> expr fuel 1
          else pure none
        else pure none
      return .mk first rest order limit offset

def ordering : Nat → Parse (Expr × Bool)
  | 0 => failure
  | fuel + 1 => do
      let e ← expr fuel 1
      let _ ← word? "asc"
      let descending ← word? "desc"
      if ← word? "nulls" then
        let _ ← next
      return (e, descending)

def compounds : Nat → Parse (List (Compound × Core))
  | 0 => failure
  | fuel + 1 => do
      let kind? : Option Compound ←
        if ← words? ["union", "all"] then pure (some .unionAll)
        else if ← word? "union" then pure (some .union)
        else if ← word? "except" then pure (some .except)
        else if ← word? "intersect" then pure (some .intersect)
        else pure none
      match kind? with
      | none => return []
      | some kind => return (kind, ← core fuel) :: (← compounds fuel)

def core : Nat → Parse Core
  | 0 => failure
  | fuel + 1 => do
      if ← word? "values" then return .values (← listOf (parens (listOf (expr fuel 1))))
      else
        word "select"
        let distinct ← word? "distinct"
        let _ ← word? "all"
        let results ← listOf (item fuel)
        let sources ← if ← word? "from" then sourceList fuel else pure []
        let condition ← if ← word? "where" then some <$> expr fuel 1 else pure none
        let group ← if ← words? ["group", "by"] then listOf (expr fuel 1) else pure []
        let having ← if ← word? "having" then some <$> expr fuel 1 else pure none
        return .select distinct results sources condition group having

def item : Nat → Parse Shown
  | 0 => failure
  | fuel + 1 => do
      if ← mark? "*" then return .all
      else
        match (← get) with
        | .word w :: .mark "." :: .mark "*" :: ts => do
            set ts
            return .allOf w
        | .quoted q _ :: .mark "." :: .mark "*" :: ts => do
            set ts
            return .allOf q.toLower
        | _ =>
            let e ← expr fuel 1
            return .expr e (← givenName?)

def sourceList : Nat → Parse (List Source)
  | 0 => failure
  | fuel + 1 => do
      let first ← source fuel .inner
      return first :: (← joined fuel)

def joined : Nat → Parse (List Source)
  | 0 => failure
  | fuel + 1 => do
      let join? : Option Join ←
        if ← mark? "," then pure (some .inner)
        else if ← word? "join" then pure (some .inner)
        else if ← words? ["inner", "join"] then pure (some .inner)
        else if ← words? ["cross", "join"] then pure (some .inner)
        else if ← words? ["left", "outer", "join"] then pure (some .left)
        else if ← words? ["left", "join"] then pure (some .left)
        else pure none
      match join? with
      | none => return []
      | some join =>
          let s ← source fuel join
          return s :: (← joined fuel)

def source : Nat → Join → Parse Source
  | 0, _ => failure
  | fuel + 1, join => do
      if ← mark? "(" then
        let q ← query fuel
        mark ")"
        let given ← givenName?
        return .query q given join (← onCondition fuel)
      else
        let table ← qualifiedName
        let given ← givenName?
        return .table table given join (← onCondition fuel)

def onCondition : Nat → Parse (Option Expr)
  | 0 => failure
  | fuel + 1 => do
      if ← word? "on" then return some (← expr fuel 1) else return none

end

def resolution : Parse Conflict := do
  match ← next with
  | .word "abort" | .word "rollback" => return .abort
  | .word "fail" => return .fail
  | .word "ignore" => return .ignore
  | .word "replace" => return .replace
  | _ => failure

def conflict? : Parse (Option Conflict) := do
  if ← word? "or" then
    return some (← resolution)
  else return none

def change (fuel : Nat) : Parse (String × Expr) := do
  let column ← name
  mark "="
  return (column, ← expr fuel 1)

def upserts (fuel : Nat) : Nat → Parse (List Upsert)
  | 0 => failure
  | count + 1 => do
      if ← words? ["on", "conflict"] then
        let target ← if ← mark? "(" then
            let columns ← listOf (targetColumn fuel)
            mark ")"
            pure columns
          else pure []
        if ← word? "where" then
          let _ ← expr fuel 1
        word "do"
        if ← word? "nothing" then
          return ⟨target, none, none⟩ :: (← upserts fuel count)
        else
          word "update"
          word "set"
          let changes ← listOf (change fuel)
          let condition ← if ← word? "where" then some <$> expr fuel 1 else pure none
          return ⟨target, some changes, condition⟩ :: (← upserts fuel count)
      else return []
where
  targetColumn (fuel : Nat) : Parse String := do
    let e ← expr fuel 1
    let _ ← word? "asc"
    let _ ← word? "desc"
    match e with
    | .column _ column _ => return column
    | .collate (.column _ column _) _ => return column
    | _ => failure

def statement (fuel : Nat) : Parse Statement := do
  match ← peek? with
  | some (.word "insert") =>
      let _ ← next
      insertion (← conflict?)
  | some (.word "replace") =>
      let _ ← next
      insertion (some .replace)
  | some (.word "update") =>
      let _ ← next
      let conflict ← conflict?
      let table ← qualifiedName
      word "set"
      let changes ← listOf (change fuel)
      let condition ← if ← word? "where" then some <$> expr fuel 1 else pure none
      return .update conflict table changes condition
  | some (.word "delete") =>
      let _ ← next
      word "from"
      let table ← qualifiedName
      let condition ← if ← word? "where" then some <$> expr fuel 1 else pure none
      return .delete table condition
  | _ => return .query (← query fuel)
where
  insertion (conflict : Option Conflict) : Parse Statement := do
    word "into"
    let table ← qualifiedName
    let columns ← if ← mark? "(" then
        let cs ← listOf name
        mark ")"
        pure (some cs)
      else pure none
    if ← words? ["default", "values"] then return .insert conflict table columns none []
    else
      let rows ← query fuel
      return .insert conflict table columns (some rows) (← upserts fuel fuel)

end Parse

end Predication.Sql
