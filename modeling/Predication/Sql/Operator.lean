import Predication.Sql.Expr
import Predication.Sql.Function

namespace Predication.Sql

def wrapInteger (n : Int) : Int :=
  Int.bmod n 0x10000000000000000

def integerOrReal (n : Int) (x : Float) : Value :=
  if fitsInteger n then .integer n else ofFloat x

def arithmetic (op : BinaryOp) (a b : Value) : Value :=
  match a.number, b.number with
  | .integer m, .integer n =>
      let x := Float.ofInt m
      let y := Float.ofInt n
      match op with
      | .plus => integerOrReal (m + n) (x + y)
      | .minus => integerOrReal (m - n) (x - y)
      | .times => integerOrReal (m * n) (x * y)
      | .divide => if n = 0 then .null else integerOrReal (Int.tdiv m n) (x / y)
      | _ => if n = 0 then .null else .integer (Int.tmod m n)
  | m, n =>
      let x := m.float
      let y := n.float
      match op with
      | .plus => ofFloat (x + y)
      | .minus => ofFloat (x - y)
      | .times => ofFloat (x * y)
      | .divide => if y == 0 then .null else ofFloat (x / y)
      | _ => if n.whole = 0 then .null else .real (realOfInt (Int.tmod m.whole n.whole))

def shift (n places : Int) : Int :=
  if 0 ≤ places then if 64 ≤ places then 0 else wrapInteger (n * Nat.pow 2 places.toNat)
  else if places ≤ -64 then if n < 0 then -1 else 0
  else Int.fdiv n (Nat.pow 2 (-places).toNat)

def joinBits (f : Nat → Nat → Nat) (a b : Int) : Int :=
  let word (n : Int) : Nat := (Int.emod n 0x10000000000000000).toNat
  wrapInteger (f (word a) (word b))

def calculate (op : BinaryOp) (a b : Value) : Value :=
  if a.isNull || b.isNull then .null
  else
    match op with
    | .bitAnd => .integer (joinBits Nat.land a.whole b.whole)
    | .bitOr => .integer (joinBits Nat.lor a.whole b.whole)
    | .shiftLeft => .integer (shift a.whole b.whole)
    | .shiftRight => .integer (shift a.whole (-b.whole))
    | .concat => .text (a.textBytes ++ b.textBytes)
    | op => arithmetic op a b

def ofTruth : Option Bool → Value
  | none => .null
  | some b => .ofBool b

def logicalAnd : Option Bool → Option Bool → Option Bool
  | some false, _ => some false
  | _, some false => some false
  | some true, b => b
  | none, _ => none

def logicalOr : Option Bool → Option Bool → Option Bool
  | some true, _ => some true
  | _, some true => some true
  | some false, b => b
  | none, _ => none

def negateValue (v : Value) : Value :=
  match v.number with
  | .integer n => integerOrReal (-n) (-(Float.ofInt n))
  | .real bits => .real (-(Float.ofBits bits)).toBits
  | _ => .null

def applyUnary (op : UnaryOp) (v : Value) : Value :=
  match op with
  | .plus => v
  | .negate => negateValue v
  | .invert => if v.isNull then .null else .integer (-v.whole - 1)
  | .logicalNot => ofTruth (v.truth?.map not)
  | .isTrue => .ofBool (v.truth? == some true)
  | .isFalse => .ofBool (v.truth? == some false)

/-- The affinity under which two sides are compared: numbers go before texts, and a side without
affinity takes that of the other one. -/
def commonAffinity (a b : Option Affinity) : Option Affinity :=
  match a, b with
  | some a, some b => if a.isNumeric || b.isNumeric then some .numeric else some .none
  | some a, none => some a
  | none, b => b

/-- A side of a comparison under an affinity; only a text makes the other side one. -/
def aligned (a : Option Affinity) (v other : Value) : Value :=
  match a, v with
  | some a, .text bytes => if a.isNumeric then numberOfText bytes else .text bytes
  | some .text, v =>
      match other with
      | .text _ => Affinity.text.apply v
      | _ => v
  | _, v => v

def compareAligned (a : Option Affinity) (collation : Collation) (x y : Value) : Ordering :=
  (aligned a x y).compare collation (aligned a y x)

def compareValues (op : BinaryOp) (a : Option Affinity) (collation : Collation) (x y : Value) :
    Value :=
  let order := compareAligned a collation x y
  match op with
  | .same => .ofBool (order == .eq)
  | .different => .ofBool (order != .eq)
  | op =>
      if x.isNull || y.isNull then .null
      else
        match op with
        | .equal => .ofBool (order == .eq)
        | .unequal => .ofBool (order != .eq)
        | .less => .ofBool (order == .lt)
        | .lessOrEqual => .ofBool (order != .gt)
        | .greater => .ofBool (order == .gt)
        | _ => .ofBool (order != .lt)

def BinaryOp.isComparison : BinaryOp → Bool
  | .equal => true
  | .unequal => true
  | .same => true
  | .different => true
  | .less => true
  | .lessOrEqual => true
  | .greater => true
  | .greaterOrEqual => true
  | _ => false

def castTo (type : String) (v : Value) : Value :=
  if v.isNull then .null
  else
    match Affinity.ofType type with
    | .text => .text v.textBytes
    | .none =>
        match v with
        | .blob bytes => .blob bytes
        | v => .blob v.textBytes
    | .integer => .integer v.whole
    | .real => .real v.float.toBits
    | .numeric =>
        match v with
        | .real bits => .real bits
        | v =>
            match v.number with
            | .real bits => wholeOfReal bits
            | n => n

end Predication.Sql
