import Predication.Json.Reader

namespace Predication.Json

open Text (isDigit)

def Blank (cs : List Char) : Prop :=
  ∀ c ∈ cs, c = ' ' ∨ c = '\t' ∨ c = '\n' ∨ c = '\r'

def Digits (cs : List Char) : Prop :=
  cs ≠ [] ∧ ∀ c ∈ cs, isDigit c = true

inductive Fraction : List Char → Prop
  | absent : Fraction []
  | digits {ds} (h : Digits ds) : Fraction ('.' :: ds)

inductive Exponent : List Char → Prop
  | absent : Exponent []
  | digits {e sign ds} (he : e = 'e' ∨ e = 'E') (hs : sign = [] ∨ sign = ['+'] ∨ sign = ['-'])
      (h : Digits ds) : Exponent (e :: (sign ++ ds))

/-- The decimal digits of a number, with a sign, a fraction or an exponent; only without these it
has a value. -/
inductive Number : List Char → Option Nat → Prop
  | plain (n : Nat) : Number (Nat.toDigits 10 n) (some n)
  | tail (n : Nat) {f e} (hf : Fraction f) (he : Exponent e) (hne : f ++ e ≠ []) :
      Number (Nat.toDigits 10 n ++ (f ++ e)) none
  | negative (n : Nat) {f e} (hf : Fraction f) (he : Exponent e) :
      Number ('-' :: (Nat.toDigits 10 n ++ (f ++ e))) none

inductive Escape : Char → Char → Prop
  | quote : Escape '"' '"'
  | backslash : Escape '\\' '\\'
  | slash : Escape '/' '/'
  | backspace : Escape 'b' '\x08'
  | formFeed : Escape 'f' '\x0c'
  | newline : Escape 'n' '\n'
  | carriageReturn : Escape 'r' '\r'
  | tab : Escape 't' '\t'

def HexDigit (c : Char) (n : Nat) : Prop :=
  n < 16 ∧ (c = Nat.digitChar n ∨ c = (Nat.digitChar n).toUpper)

inductive Body : List Char → List Piece → Prop
  | nil : Body [] []
  | plain {c cs ps} (hq : c ≠ '"') (hb : c ≠ '\\') (hc : 0x20 ≤ c.toNat) (h : Body cs ps) :
      Body (c :: cs) (.char c :: ps)
  | escape {e c cs ps} (he : Escape e c) (h : Body cs ps) : Body ('\\' :: e :: cs) (.char c :: ps)
  | unit {a b c d p q r s cs ps} (ha : HexDigit a p) (hb : HexDigit b q) (hc : HexDigit c r)
      (hd : HexDigit d s) (h : Body cs ps) :
      Body ('\\' :: 'u' :: a :: b :: c :: d :: cs)
        (.unit (0x1000 * p + 0x100 * q + 0x10 * r + s) :: ps)

/-- The characters of a text: a number of 16 bits is a character, or the halves of one are two
numbers side by side. -/
inductive Characters : List Piece → List Char → Prop
  | nil : Characters [] []
  | char (c : Char) {ps cs} (h : Characters ps cs) : Characters (.char c :: ps) (c :: cs)
  | unit {n ps cs} (hn : n < 0xd800 ∨ 0xe000 ≤ n) (h : Characters ps cs) :
      Characters (.unit n :: ps) (Char.ofNat n :: cs)
  | pair {m n ps cs} (hm : m < 0x400) (hn : n < 0x400) (h : Characters ps cs) :
      Characters (.unit (0xd800 + m) :: .unit (0xdc00 + n) :: ps)
        (Char.ofNat (0x10000 + 0x400 * m + n) :: cs)

inductive Quoted : List Char → Option String → Prop
  | text {cs ps t} (hb : Body cs ps) (ht : Characters ps t) :
      Quoted ('"' :: (cs ++ ['"'])) (some (String.ofList t))
  | broken {cs ps} (hb : Body cs ps) (ht : ∀ t, ¬ Characters ps t) :
      Quoted ('"' :: (cs ++ ['"'])) none

section

variable {α : Type}

inductive Padded (P : List Char → α → Prop) : List Char → α → Prop
  | mk {a cs b x} (ha : Blank a) (h : P cs x) (hb : Blank b) : Padded P (a ++ (cs ++ b)) x

inductive Separated (P : List Char → α → Prop) : List Char → List α → Prop
  | last {cs x} (h : P cs x) : Separated P cs [x]
  | more {cs x ds xs} (h : P cs x) (hs : Separated P ds xs) :
      Separated P (cs ++ ',' :: ds) (x :: xs)

end

inductive Member (P : List Char → Json → Prop) : List Char → Option String × Json → Prop
  | mk {ks k cs v} (hk : Padded Quoted ks k) (hv : Padded P cs v) :
      Member P (ks ++ ':' :: cs) (k, v)

inductive Value : List Char → Json → Prop
  | null : Value ['n', 'u', 'l', 'l'] .null
  | truth : Value ['t', 'r', 'u', 'e'] (.truth true)
  | falsehood : Value ['f', 'a', 'l', 's', 'e'] (.truth false)
  | number {cs n} (h : Number cs n) : Value cs (.number n)
  | text {cs t} (h : Quoted cs t) : Value cs (.text t)
  | noItems {cs} (h : Blank cs) : Value ('[' :: (cs ++ [']'])) (.array [])
  | items {cs vs} (h : Separated (Padded Value) cs vs) : Value ('[' :: (cs ++ [']'])) (.array vs)
  | noMembers {cs} (h : Blank cs) : Value ('\x7b' :: (cs ++ ['\x7d'])) (.object [])
  | members {cs ms} (h : Separated (Member Value) cs ms) :
      Value ('\x7b' :: (cs ++ ['\x7d'])) (.object ms)

def Document (s : String) (v : Json) : Prop :=
  Padded Value s.toList v

end Predication.Json
