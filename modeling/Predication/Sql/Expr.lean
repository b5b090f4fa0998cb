import Predication.Sql.Value

namespace Predication.Sql

inductive UnaryOp where
  | negate
  | plus
  | invert
  | logicalNot
  | isTrue
  | isFalse

inductive BinaryOp where
  | logicalOr
  | logicalAnd
  | equal
  | unequal
  | same
  | different
  | less
  | lessOrEqual
  | greater
  | greaterOrEqual
  | bitAnd
  | bitOr
  | shiftLeft
  | shiftRight
  | plus
  | minus
  | times
  | divide
  | remainder
  | concat

/-- What a trigger raises: it skips the row, or it stops the statement, which keeps what it did or
takes it back. -/
inductive Raise where
  | ignore
  | fail
  | abort

inductive Compound where
  | unionAll
  | union
  | except
  | intersect

inductive Join where
  | inner
  | left

/-- What to do about a conflict with a constraint: to stop the statement, which takes back what it
did or keeps it; to skip the row; or to delete the rows that are in the way. -/
inductive Conflict where
  | abort
  | fail
  | ignore
  | replace
  deriving DecidableEq

mutual

/-- A name in double quotes that is no column is a text. The argument list of a call can be a star.
-/
inductive Expr where
  | value (v : Value)
  | column (table : Option String) (name : String) (double : Bool)
  | unary (op : UnaryOp) (e : Expr)
  | binary (op : BinaryOp) (a b : Expr)
  | collate (e : Expr) (name : String)
  | cast (e : Expr) (type : String)
  | call (name : String) (args : List Expr) (star distinct : Bool)
  | choose (base : Option Expr) (arms : List (Expr × Expr)) (other : Option Expr)
  | between (e low high : Expr)
  | inList (e : Expr) (items : List Expr)
  | inQuery (e : Expr) (q : Query)
  | like (name : String) (e pattern : Expr) (escape : Option Expr)
  | exists (q : Query)
  | scalar (q : Query)
  | raise (kind : Raise)

inductive Query where
  | mk (first : Core) (rest : List (Compound × Core)) (order : List (Expr × Bool))
      (limit offset : Option Expr)

inductive Core where
  | select (distinct : Bool) (results : List Shown) (sources : List Source)
      (condition : Option Expr)
      (group : List Expr) (having : Option Expr)
  | values (rows : List (List Expr))

inductive Shown where
  | all
  | allOf (source : String)
  | expr (e : Expr) (name : Option String)

inductive Source where
  | table (name : String) (given : Option String) (join : Join) (on : Option Expr)
  | query (q : Query) (given : Option String) (join : Join) (on : Option Expr)

end

instance : Inhabited Expr := ⟨.value .null⟩

/-- What an insertion does when a key is there already: nothing, or changes of the row that has it.
The key is that of the given columns, or any key. -/
structure Upsert where
  target : List String
  changes : Option (List (String × Expr))
  condition : Option Expr

inductive Statement where
  | insert (conflict : Option Conflict) (table : String) (columns : Option (List String))
      (rows : Option Query) (upserts : List Upsert)
  | update (conflict : Option Conflict) (table : String) (changes : List (String × Expr))
      (condition : Option Expr)
  | delete (table : String) (condition : Option Expr)
  | query (q : Query)

end Predication.Sql
