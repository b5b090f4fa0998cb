import Predication.Sql.Number
import Predication.Sql.Pattern
import Predication.Sql.Token

namespace Predication.Sql

def upperHex (n : Nat) : UInt8 :=
  if n < 10 then UInt8.ofNat (48 + n) else UInt8.ofNat (55 + n)

def hexText (bytes : Bytes) : Bytes :=
  bytes.flatMap fun b => [upperHex (b.toNat / 16), upperHex (b.toNat % 16)]

/-- The whole number at the front of a text, after blanks, held within its bounds. -/
def leadingWhole (bytes : Bytes) : Int :=
  let rest := bytes.dropWhile isBlankByte
  let negative := rest.head? == some 45
  let digits := if negative || rest.head? == some 43 then rest.tail else rest
  let n : Int := digitsOf (digits.takeWhile isDigitByte)
  max leastInteger (min greatestInteger (if negative then -n else n))

def Value.whole : Value → Int
  | .null => 0
  | .integer n => n
  | .real bits => truncateReal bits
  | .text bytes => leadingWhole bytes
  | .blob bytes => leadingWhole bytes

def Value.float (v : Value) : Float :=
  match v.number with
  | .integer n => Float.ofInt n
  | .real bits => Float.ofBits bits
  | _ => 0

def ofFloat (x : Float) : Value :=
  if x.isNaN then .null else .real x.toBits

def untilZero (bytes : Bytes) : Bytes :=
  bytes.takeWhile (· != 0)

def lengthOf : Value → Value
  | .null => .null
  | .blob bytes => .integer bytes.length
  | v => .integer (characters (untilZero v.textBytes)).length

def typeName : Value → String
  | .null => "null"
  | .integer _ => "integer"
  | .real _ => "real"
  | .text _ => "text"
  | .blob _ => "blob"

def quoteText (bytes : Bytes) : Bytes :=
  39 :: (bytes.flatMap fun b => if b = 39 then [39, 39] else [b]) ++ [39]

def quoteValue : Value → Bytes
  | .null => bytesOf "NULL"
  | .text bytes => quoteText (untilZero bytes)
  | .blob bytes => bytesOf "X'" ++ hexText bytes ++ [39]
  | v => v.textBytes

/-- The part of a list that starts at the place `start`, counted from one, or from the end if it is
negative, and has `count` elements; a negative count goes backwards. -/
def slice {α : Type} (xs : List α) (start : Int) (count : Option Int) : List α :=
  let size : Int := xs.length
  let backwards := count.any (· < 0)
  let n : Int := (count.map fun c => (c.natAbs : Int)).getD 0x80000000
  let (p, n) :=
    if start < 0 then
      if start + size < 0 then ((0 : Int), max 0 (n + (start + size))) else (start + size, n)
    else if 0 < start then (start - 1, n)
    else (0, if 0 < n then n - 1 else n)
  let (p, n) :=
    if backwards then if p - n < 0 then (0, n + (p - n)) else (p - n, n) else (p, n)
  (xs.drop p.toNat).take n.toNat

def substring (v start : Value) (count : Option Value) : Value :=
  if v.isNull || start.isNull || count.any Value.isNull then .null
  else
    match v with
    | .blob bytes => .blob (slice bytes start.whole (count.map Value.whole))
    | v => .text (slice (characters v.textBytes) start.whole (count.map Value.whole)).flatten

/-- The place of a part in a list, from one on; zero if there is none. -/
def placeOf {α : Type} [BEq α] (part : List α) : List α → Nat
  | [] => if part.isEmpty then 1 else 0
  | a :: as =>
      if part.isPrefixOf (a :: as) then 1
      else
        match placeOf part as with
        | 0 => 0
        | n => n + 1

def replaceAll (part new : Bytes) : Nat → Bytes → Bytes
  | 0, s => s
  | _, [] => []
  | fuel + 1, b :: rest =>
      if part.isPrefixOf (b :: rest) then
        new ++ replaceAll part new fuel ((b :: rest).drop part.length)
      else b :: replaceAll part new fuel rest

inductive Side where
  | left
  | right
  | both

def trimChars (side : Side) (set : List Bytes) (bytes : Bytes) : Bytes :=
  let cs := characters bytes
  let front (cs : List Bytes) := cs.dropWhile set.contains
  let back (cs : List Bytes) := (front cs.reverse).reverse
  match side with
  | .left => (front cs).flatten
  | .right => (back cs).flatten
  | .both => (back (front cs)).flatten

def trim (side : Side) (v : Value) (set : Option Value) : Value :=
  if v.isNull || set.any Value.isNull then .null
  else .text (trimChars side ((set.map fun s => characters s.textBytes).getD [[32]]) v.textBytes)

def roundTo (x : Float) (places : Nat) : Float :=
  let scale := Float.ofNat (Nat.pow 10 places)
  let y := (x.abs * scale + 0.5).floor / scale
  if x < 0 then -y else y

def absolute? : Value → Option Value
  | .null => some .null
  | .integer n => if n = leastInteger then none else some (.integer n.natAbs)
  | v =>
      match v.number with
      | .integer n => some (.real (Float.ofInt n).abs.toBits)
      | .real bits => some (.real (Float.ofBits bits).abs.toBits)
      | _ => some (.real 0)

def signOf : Value → Value
  | .text bytes => if (Numeral.read? bytes).isSome then go (.text bytes) else .null
  | .blob _ => .null
  | .null => .null
  | v => go v
where
  go (v : Value) : Value :=
    .integer (if v.float < 0 then -1 else if 0 < v.float then 1 else 0)

/-- The extreme of values in an order; nothing among them makes it nothing. -/
def extreme (wanted : Ordering) (collation : Collation) : List Value → Value
  | [] => .null
  | v :: vs =>
      if (v :: vs).any Value.isNull then .null
      else vs.foldl (fun a b => if b.compare collation a = wanted then b else a) v

def joinTexts (separator : Bytes) : List Value → Bytes
  | [] => []
  | [v] => v.textBytes
  | v :: vs => v.textBytes ++ separator ++ joinTexts separator vs

def formatText : Nat → Bytes → List Value → Bytes
  | 0, _, _ => []
  | _, [], _ => []
  | fuel + 1, b :: rest, args =>
      if b != 37 then b :: formatText fuel rest args
      else
        let rest := rest.dropWhile fun b => isDigitByte b || [45, 43, 32, 46, 33, 108].contains b
        let v := args.headD .null
        match rest with
        | [] => []
        | c :: rest =>
            if c = 37 then 37 :: formatText fuel rest args
            else if c = 100 || c = 105 || c = 117 then
              (Value.integer v.whole).textBytes ++ formatText fuel rest args.tail
            else if c = 113 then
              ((quoteText v.textBytes).drop 1).dropLast ++ formatText fuel rest args.tail
            else if c = 81 then
              (if v.isNull then bytesOf "NULL" else quoteText v.textBytes) ++
                formatText fuel rest args.tail
            else v.textBytes ++ formatText fuel rest args.tail

/-- A moment in time; it stands for every time of day. -/
def clock (name : String) : Value :=
  .ofString (
    if name == "date" || name == "current_date" then "2000-01-01"
    else if name == "time" || name == "current_time" then "00:00:00"
    else "2000-01-01 00:00:00")

def isDateFunction (name : String) : Bool :=
  ["date", "time", "datetime", "julianday", "unixepoch", "strftime", "timediff",
    "current_timestamp", "current_date", "current_time"].contains name

def leastArguments? (name : String) : Option Nat :=
  match name with
  | "coalesce" => some 2
  | "max" => some 2
  | "min" => some 2
  | "char" => some 0
  | "format" => some 0
  | "printf" => some 0
  | "concat" => some 1
  | "concat_ws" => some 2
  | _ => if isDateFunction name then some 0 else none

def fixedArguments (name : String) : List Nat :=
  match name with
  | "abs" | "hex" | "length" | "octet_length" | "lower" | "upper" | "quote" | "sign" | "soundex"
  | "typeof" | "unicode" | "zeroblob" | "randomblob" | "likely" | "unlikely" | "json_valid" => [1]
  | "glob" | "ifnull" | "instr" | "nullif" | "likelihood" => [2]
  | "iif" | "replace" => [3]
  | "like" | "substr" | "substring" => [2, 3]
  | "trim" | "ltrim" | "rtrim" | "round" | "unhex" => [1, 2]
  | "random" | "changes" | "total_changes" | "last_insert_rowid" | "sqlite_version" => [0]
  | _ => []

def isFunction (name : String) (count : Nat) : Bool :=
  (leastArguments? name).any (· ≤ count) || (fixedArguments name).contains count

def callFunction? (collation : Collation) (name : String) (args : List Value) : Option Value :=
  let onText (v : Value) (f : Bytes → Bytes) : Value :=
    if v.isNull then .null else .text (f v.textBytes)
  match name, args with
  | "abs", [v] => absolute? v
  | "hex", [v] => some (.text (hexText v.textBytes))
  | "length", [v] => some (lengthOf v)
  | "octet_length", [v] => some (if v.isNull then .null else .integer v.textBytes.length)
  | "lower", [v] => some (onText v (List.map lowerByte))
  | "upper", [v] => some (onText v (List.map upperByte))
  | "quote", [v] => some (.text (quoteValue v))
  | "sign", [v] => some (signOf v)
  | "typeof", [v] => some (.ofString (typeName v))
  | "unicode", [v] =>
      match (stringOf? v.textBytes).bind fun s => s.toList.head? with
      | some c => some (if v.isNull then .null else .integer c.toNat)
      | none => some .null
  | "zeroblob", [v] => some (.blob (List.replicate (min v.whole.toNat 100000) 0))
  | "randomblob", [v] => some (.blob (List.replicate (max 1 (min v.whole.toNat 100000)) 0))
  | "soundex", [_] => some (.ofString "?000")
  | "json_valid", [v] => some (if v.isNull then .null else .integer 1)
  | "likely", [v] => some v
  | "unlikely", [v] => some v
  | "likelihood", [v, _] => some v
  | "ifnull", [a, b] => some (if a.isNull then b else a)
  | "coalesce", vs => some ((vs.find? fun v => !v.isNull).getD .null)
  | "nullif", [a, b] =>
      some (if !a.isNull && !b.isNull && a.compare collation b = .eq then .null else a)
  | "iif", [c, a, b] => some (if c.truth? = some true then a else b)
  | "instr", [a, b] =>
      if a.isNull || b.isNull then some .null
      else
        match a, b with
        | .blob x, .blob y => some (.integer (placeOf y x))
        | a, b => some (.integer (placeOf (characters b.textBytes) (characters a.textBytes)))
  | "glob", [p, v] =>
      some (if p.isNull || v.isNull then .null else .ofBool (glob p.textBytes v.textBytes))
  | "like", [p, v] =>
      some (if p.isNull || v.isNull then .null else .ofBool (like none p.textBytes v.textBytes))
  | "like", [p, v, e] =>
      if (characters e.textBytes).length != 1 then none
      else
        some (if p.isNull || v.isNull || e.isNull then .null
          else .ofBool (like (some e.textBytes) p.textBytes v.textBytes))
  | "replace", [v, part, new] =>
      if v.isNull || part.isNull || new.isNull then some .null
      else if part.textBytes.isEmpty then some (.text v.textBytes)
      else
        let bytes := v.textBytes
        some (.text (replaceAll part.textBytes new.textBytes (bytes.length + 1) bytes))
  | "substr", [v, start] => some (substring v start none)
  | "substr", [v, start, n] => some (substring v start (some n))
  | "substring", [v, start] => some (substring v start none)
  | "substring", [v, start, n] => some (substring v start (some n))
  | "trim", [v] => some (trim .both v none)
  | "trim", [v, set] => some (trim .both v (some set))
  | "ltrim", [v] => some (trim .left v none)
  | "ltrim", [v, set] => some (trim .left v (some set))
  | "rtrim", [v] => some (trim .right v none)
  | "rtrim", [v, set] => some (trim .right v (some set))
  | "round", [v] => some (if v.isNull then .null else ofFloat (roundTo v.float 0))
  | "round", [v, n] =>
      some (if v.isNull || n.isNull then .null
        else ofFloat (roundTo v.float (min 30 n.whole.toNat)))
  | "unhex", v :: _ =>
      if v.isNull then some .null
      else
        match (stringOf? v.textBytes).bind fun s => hexBytes? s.toList with
        | some bytes => some (.blob bytes)
        | none => some .null
  | "max", vs => some (extreme .gt collation vs)
  | "min", vs => some (extreme .lt collation vs)
  | "char", vs => some (.ofString (String.ofList (vs.map fun v => Char.ofNat v.whole.toNat)))
  | "concat", vs => some (.text (joinTexts [] vs))
  | "concat_ws", s :: vs =>
      some (if s.isNull then .null
        else .text (joinTexts s.textBytes (vs.filter fun v => !v.isNull)))
  | "format", v :: vs => some (formatted v vs)
  | "printf", v :: vs => some (formatted v vs)
  | "format", [] => some .null
  | "printf", [] => some .null
  | "random", [] => some (.integer 4)
  | "changes", [] => some (.integer 0)
  | "total_changes", [] => some (.integer 0)
  | "last_insert_rowid", [] => some (.integer 0)
  | "sqlite_version", [] => some (.ofString "3.46.0")
  | name, _ => if isDateFunction name then some (clock name) else none
where
  formatted (v : Value) (vs : List Value) : Value :=
    if v.isNull then .null
    else .text (formatText (v.textBytes.length + 1) v.textBytes vs)

end Predication.Sql
