/-!
Values of a database: nothing, whole numbers, real numbers, texts and blobs. A text is the bytes of
its UTF-8 form, which need not be well formed; a real number is known by its bits.
-/

namespace Predication.Sql

abbrev Bytes := List UInt8

inductive Value where
  | null
  | integer (n : Int)
  | real (bits : UInt64)
  | text (bytes : Bytes)
  | blob (bytes : Bytes)
  deriving DecidableEq

instance : Inhabited Value := ⟨.null⟩

def bytesOf (s : String) : Bytes :=
  s.toUTF8.toList

def stringOf? (bytes : Bytes) : Option String :=
  String.fromUTF8? ⟨bytes.toArray⟩

def Value.ofString (s : String) : Value :=
  .text (bytesOf s)

def Value.ofBool (b : Bool) : Value :=
  .integer (if b then 1 else 0)

def Value.isNull (v : Value) : Bool :=
  v == .null

def Value.string? : Value → Option String
  | .text bytes => stringOf? bytes
  | _ => none

def lowerByte (b : UInt8) : UInt8 :=
  if 65 ≤ b ∧ b ≤ 90 then b + 32 else b

def upperByte (b : UInt8) : UInt8 :=
  if 97 ≤ b ∧ b ≤ 122 then b - 32 else b

def leastInteger : Int := -0x8000000000000000

def greatestInteger : Int := 0x7fffffffffffffff

def fitsInteger (n : Int) : Bool :=
  leastInteger ≤ n && n ≤ greatestInteger

/-- How texts are compared: by their bytes, without regard to the case of ASCII letters, or without
the blanks at their ends. -/
inductive Collation where
  | binary
  | noCase
  | rightTrim
  deriving DecidableEq

def Collation.ofName? (name : String) : Option Collation :=
  match name.toLower with
  | "binary" => some .binary
  | "nocase" => some .noCase
  | "rtrim" => some .rightTrim
  | _ => none

def compareBytes : Bytes → Bytes → Ordering
  | [], [] => .eq
  | [], _ :: _ => .lt
  | _ :: _, [] => .gt
  | a :: as, b :: bs => (compare a b).then (compareBytes as bs)

def dropBlanks (bytes : Bytes) : Bytes :=
  (bytes.reverse.dropWhile (· == 32)).reverse

def Collation.compare : Collation → Bytes → Bytes → Ordering
  | .binary, a, b => compareBytes a b
  | .noCase, a, b => compareBytes (a.map lowerByte) (b.map lowerByte)
  | .rightTrim, a, b => compareBytes (dropBlanks a) (dropBlanks b)

inductive Affinity where
  | none
  | text
  | numeric
  | integer
  | real
  deriving DecidableEq

def containsPart (part : List Char) : List Char → Bool
  | [] => part.isEmpty
  | c :: rest => part.isPrefixOf (c :: rest) || containsPart part rest

def containsText (text part : String) : Bool :=
  containsPart part.toList text.toList

def Affinity.ofType (type : String) : Affinity :=
  let t := type.toLower
  if containsText t "int" then .integer
  else if containsText t "char" || containsText t "clob" || containsText t "text" then .text
  else if containsText t "blob" || t.isEmpty then .none
  else if containsText t "real" || containsText t "floa" || containsText t "doub" then .real
  else .numeric

def Affinity.isNumeric : Affinity → Bool
  | .none => false
  | .text => false
  | .numeric => true
  | .integer => true
  | .real => true

end Predication.Sql
