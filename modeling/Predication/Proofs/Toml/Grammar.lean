import Predication.Proofs.Json.Grammar
import Predication.Toml.Scalar
import Mathlib.Data.Rat.Defs
import Mathlib.Algebra.Order.Field.Rat

namespace Predication.Toml

open Json (HexDigit)
open Text (isDigit digitsValue)

def Space (cs : List Char) : Prop :=
  ∀ c ∈ cs, c = ' ' ∨ c = '\t'

inductive Newline : List Char → Prop
  | lineFeed : Newline ['\n']
  | carriageReturn : Newline ['\r', '\n']

def Visible (c : Char) : Prop :=
  c = '\t' ∨ 0x20 ≤ c.toNat ∧ c.toNat ≠ 0x7f

instance (c : Char) : Decidable (Visible c) :=
  inferInstanceAs (Decidable (_ ∨ _ ∧ _))

inductive Comment : List Char → Prop
  | absent : Comment []
  | note {cs} (h : ∀ c ∈ cs, Visible c) : Comment ('#' :: cs)

section Text

inductive Escape : Char → Char → Prop
  | backspace : Escape 'b' '\x08'
  | tab : Escape 't' '\t'
  | newline : Escape 'n' '\n'
  | formFeed : Escape 'f' '\x0c'
  | carriageReturn : Escape 'r' '\r'
  | quote : Escape '"' '"'
  | backslash : Escape '\\' '\\'

inductive BasicChar : List Char → Char → Prop
  | plain {x} (hq : x ≠ '"') (hb : x ≠ '\\') (h : Visible x) : BasicChar [x] x
  | escape {e x} (h : Escape e x) : BasicChar ['\\', e] x
  | code {a b c d p q r s x} (ha : HexDigit a p) (hb : HexDigit b q) (hc : HexDigit c r)
      (hd : HexDigit d s) (hx : x.toNat = 0x1000 * p + 0x100 * q + 0x10 * r + s) :
      BasicChar ['\\', 'u', a, b, c, d] x
  | longCode {a b c d e f g h i j k l m n o p x} (ha : HexDigit a i) (hb : HexDigit b j)
      (hc : HexDigit c k) (hd : HexDigit d l) (he : HexDigit e m) (hf : HexDigit f n)
      (hg : HexDigit g o) (hh : HexDigit h p)
      (hx : x.toNat = (0x1000 * i + 0x100 * j + 0x10 * k + l) * 0x10000 +
        (0x1000 * m + 0x100 * n + 0x10 * o + p)) :
      BasicChar ['\\', 'U', a, b, c, d, e, f, g, h] x

inductive Basic : List Char → List Char → Prop
  | nil : Basic [] []
  | cons {p x cs t} (hp : BasicChar p x) (h : Basic cs t) : Basic (p ++ cs) (x :: t)

def Literal (cs : List Char) : Prop :=
  ∀ c ∈ cs, c ≠ '\x27' ∧ Visible c

inductive Gap : List Char → Prop
  | nil : Gap []
  | space {c cs} (hc : c = ' ' ∨ c = '\t') (h : Gap cs) : Gap (c :: cs)
  | newline {n cs} (hn : Newline n) (h : Gap cs) : Gap (n ++ cs)

def Avoids (heads cs : List Char) : Prop :=
  ∀ c ∈ heads, cs.head? ≠ some c

/-- What follows the opening quotes of a text on several lines, the closing ones included. One or
two quotes may stand anywhere, also right before the closing ones. -/
inductive LiteralLines : List Char → List Char → Prop
  | close {n} (hn : n ≤ 2) :
      LiteralLines (List.replicate (n + 3) '\x27') (List.replicate n '\x27')
  | char {c cs t} (hq : c ≠ '\x27') (hc : Visible c) (h : LiteralLines cs t) :
      LiteralLines (c :: cs) (c :: t)
  | quotes {n c cs t} (hn : n ≤ 2) (hc : c ≠ '\x27') (h : LiteralLines (c :: cs) t) :
      LiteralLines (List.replicate n '\x27' ++ c :: cs) (List.replicate n '\x27' ++ t)
  | newline {n cs t} (hn : Newline n) (h : LiteralLines cs t) :
      LiteralLines (n ++ cs) ('\n' :: t)

/-- As above, with escapes; a backslash at the end of a line joins it with what follows the spaces
and line ends behind it. -/
inductive BasicLines : List Char → List Char → Prop
  | close {n} (hn : n ≤ 2) : BasicLines (List.replicate (n + 3) '"') (List.replicate n '"')
  | char {p x cs t} (hp : BasicChar p x) (h : BasicLines cs t) : BasicLines (p ++ cs) (x :: t)
  | quotes {n c cs t} (hn : n ≤ 2) (hc : c ≠ '"') (h : BasicLines (c :: cs) t) :
      BasicLines (List.replicate n '"' ++ c :: cs) (List.replicate n '"' ++ t)
  | newline {n cs t} (hn : Newline n) (h : BasicLines cs t) : BasicLines (n ++ cs) ('\n' :: t)
  | join {a n b cs t} (ha : Space a) (hn : Newline n) (hb : Gap b)
      (hs : Avoids [' ', '\t', '\n', '\r'] cs) (h : BasicLines cs t) :
      BasicLines ('\\' :: (a ++ (n ++ (b ++ cs)))) t

/-- A text in quotes. A line end right after three quotes does not count. -/
inductive Quoted : List Char → List Char → Prop
  | basic {cs t} (h : Basic cs t) : Quoted ('"' :: (cs ++ ['"'])) t
  | literal {t} (h : Literal t) : Quoted ('\x27' :: (t ++ ['\x27'])) t
  | basicLines {cs t} (hs : Avoids ['\n', '\r'] cs) (h : BasicLines cs t) :
      Quoted ('"' :: '"' :: '"' :: cs) t
  | basicBlock {n cs t} (hn : Newline n) (h : BasicLines cs t) :
      Quoted ('"' :: '"' :: '"' :: (n ++ cs)) t
  | literalLines {cs t} (hs : Avoids ['\n', '\r'] cs) (h : LiteralLines cs t) :
      Quoted ('\x27' :: '\x27' :: '\x27' :: cs) t
  | literalBlock {n cs t} (hn : Newline n) (h : LiteralLines cs t) :
      Quoted ('\x27' :: '\x27' :: '\x27' :: (n ++ cs)) t

end Text

section Number

inductive DigitRun (digit : Char → Prop) : List Char → Prop
  | last {c} (h : digit c) : DigitRun digit [c]
  | digit {c cs} (h : digit c) (hs : DigitRun digit cs) : DigitRun digit (c :: cs)
  | underscore {c cs} (h : digit c) (hs : DigitRun digit cs) : DigitRun digit (c :: '_' :: cs)

def Decimal (c : Char) : Prop :=
  isDigit c = true

instance (c : Char) : Decidable (Decimal c) :=
  inferInstanceAs (Decidable (_ = true))

inductive Sign : List Char → Prop
  | absent : Sign []
  | plus : Sign ['+']
  | minus : Sign ['-']

inductive Whole : List Char → Prop
  | zero : Whole ['0']
  | run {c cs} (h : DigitRun Decimal (c :: cs)) (h0 : c ≠ '0') : Whole (c :: cs)

inductive Base : Char → Nat → Prop
  | hexadecimal : Base 'x' 16
  | octal : Base 'o' 8
  | binary : Base 'b' 2

def BaseDigit (base : Nat) (c : Char) : Prop :=
  ∃ n < base, HexDigit c n

inductive Integer : List Char → Prop
  | decimal {sign ds} (hs : Sign sign) (hd : Whole ds)
      (hr : digitsValue (withoutUnderscores ds) < 2 ^ 63 ∨
        sign = ['-'] ∧ digitsValue (withoutUnderscores ds) = 2 ^ 63) : Integer (sign ++ ds)
  | based {letter base ds} (hb : Base letter base) (hd : DigitRun (BaseDigit base) ds)
      (hr : baseValue base (withoutUnderscores ds) < 2 ^ 63) : Integer ('0' :: letter :: ds)

inductive Fraction : List Char → List Char → Prop
  | absent : Fraction [] []
  | places {ds} (h : DigitRun Decimal ds) : Fraction ('.' :: ds) (withoutUnderscores ds)

inductive Exponent : List Char → Int → Prop
  | absent : Exponent [] 0
  | up {e sign ds} (he : e = 'e' ∨ e = 'E') (hs : sign = [] ∨ sign = ['+'])
      (h : DigitRun Decimal ds) :
      Exponent (e :: (sign ++ ds)) (digitsValue (withoutUnderscores ds))
  | down {e ds} (he : e = 'e' ∨ e = 'E') (h : DigitRun Decimal ds) :
      Exponent (e :: '-' :: ds) (-digitsValue (withoutUnderscores ds))

/-- A number that does not round to infinity in 64 bits. -/
def Finite (digits : Nat) (power : Int) : Prop :=
  (digits : ℚ) * 10 ^ power < 2 ^ 1024 - 2 ^ 970

inductive Float : List Char → Prop
  | finite {sign whole fraction places exponent power} (hs : Sign sign) (hw : Whole whole)
      (hf : Fraction fraction places) (he : Exponent exponent power)
      (hne : fraction ++ exponent ≠ [])
      (hr : sign = ['-'] ∨
        Finite (digitsValue (withoutUnderscores whole ++ places)) (power - places.length)) :
      Float (sign ++ (whole ++ (fraction ++ exponent)))
  | infinity {sign} (hs : Sign sign) : Float (sign ++ ['i', 'n', 'f'])
  | notNumber {sign} (hs : Sign sign) : Float (sign ++ ['n', 'a', 'n'])

end Number

section Moment

inductive TwoDigits (low high : Nat) : List Char → Nat → Prop
  | mk {a b} (ha : Decimal a) (hb : Decimal b) (hl : low ≤ digitsValue [a, b])
      (hh : digitsValue [a, b] ≤ high) : TwoDigits low high [a, b] (digitsValue [a, b])

inductive Date : List Char → Prop
  | mk {a b c d month m day n} (ha : Decimal a) (hb : Decimal b) (hc : Decimal c) (hd : Decimal d)
      (hm : TwoDigits 1 12 month m)
      (hn : TwoDigits 1 (daysInMonth (digitsValue [a, b, c, d]) m) day n) :
      Date (a :: b :: c :: d :: '-' :: (month ++ '-' :: day))

inductive Instant : List Char → Prop
  | whole : Instant []
  | split {d ds} (hd : Decimal d) (h : ∀ c ∈ ds, Decimal c) : Instant ('.' :: d :: ds)

inductive Time : List Char → Prop
  | mk {hour h minute m second s instant} (hh : TwoDigits 0 23 hour h)
      (hm : TwoDigits 0 59 minute m) (hs : TwoDigits 0 60 second s) (hi : Instant instant) :
      Time (hour ++ ':' :: (minute ++ ':' :: (second ++ instant)))

inductive Offset : List Char → Prop
  | absent : Offset []
  | universal {c} (hc : c = 'Z' ∨ c = 'z') : Offset [c]
  | numeric {c hour h minute m} (hc : c = '+' ∨ c = '-') (hh : TwoDigits 0 23 hour h)
      (hm : TwoDigits 0 59 minute m) : Offset (c :: (hour ++ ':' :: minute))

inductive Moment : List Char → Prop
  | date {d} (hd : Date d) : Moment d
  | time {t} (ht : Time t) : Moment t
  | both {d c t o} (hd : Date d) (hc : c = 'T' ∨ c = 't' ∨ c = ' ') (ht : Time t)
      (ho : Offset o) : Moment (d ++ c :: (t ++ o))

end Moment

inductive Scalar : List Char → Prop
  | truth : Scalar ['t', 'r', 'u', 'e']
  | falsehood : Scalar ['f', 'a', 'l', 's', 'e']
  | integer {cs} (h : Integer cs) : Scalar cs
  | float {cs} (h : Float cs) : Scalar cs
  | moment {cs} (h : Moment cs) : Scalar cs

section Key

def BareChar (c : Char) : Prop :=
  isDigit c = true ∨ ('a' ≤ c ∧ c ≤ 'z') ∨ ('A' ≤ c ∧ c ≤ 'Z') ∨ c = '-' ∨ c = '_'

inductive KeyPart : List Char → List Char → Prop
  | bare {cs} (hne : cs ≠ []) (h : ∀ c ∈ cs, BareChar c) : KeyPart cs cs
  | basic {cs t} (h : Basic cs t) : KeyPart ('"' :: (cs ++ ['"'])) t
  | literal {t} (h : Literal t) : KeyPart ('\x27' :: (t ++ ['\x27'])) t

inductive Key : List Char → List String → Prop
  | last {a cs t b} (ha : Space a) (h : KeyPart cs t) (hb : Space b) :
      Key (a ++ (cs ++ b)) [String.ofList t]
  | dotted {a cs t b ds parts} (ha : Space a) (h : KeyPart cs t) (hb : Space b)
      (hd : Key ds parts) : Key (a ++ (cs ++ (b ++ '.' :: ds))) (String.ofList t :: parts)

end Key

def ApartFrom (p q : List String) : Prop :=
  ¬ p <+: q ∧ ¬ q <+: p

def Apart (paths : List (List String)) : Prop :=
  paths.Pairwise ApartFrom

inductive Filler : List Char → Prop
  | nil : Filler []
  | space {c cs} (hc : c = ' ' ∨ c = '\t') (h : Filler cs) : Filler (c :: cs)
  | newline {c n cs} (hc : Comment c) (hn : Newline n) (h : Filler cs) : Filler (c ++ (n ++ cs))

section Value

variable (limit : Nat)

mutual

/-- A value in which arrays and tables in braces are nested in at most so many levels, and the text
that it is, if it is one. Keys have fewer parts than the limit. -/
inductive Value : Nat → List Char → Option String → Prop
  | text {depth cs t} (h : Quoted cs t) : Value depth cs (some (String.ofList t))
  | scalar {depth cs} (h : Scalar cs) : Value depth cs none
  | array {depth cs} (h : Items depth cs) : Value (depth + 1) ('[' :: (cs ++ [']'])) none
  | emptyTable {depth a} (ha : Space a) : Value (depth + 1) ('\x7b' :: (a ++ ['\x7d'])) none
  | table {depth cs paths} (h : Pairs depth cs paths) (hp : Apart paths) :
      Value (depth + 1) ('\x7b' :: (cs ++ ['\x7d'])) none

inductive Items : Nat → List Char → Prop
  | none {depth a} (ha : Filler a) : Items depth a
  | last {depth a cs v b} (ha : Filler a) (h : Value depth cs v) (hb : Filler b) :
      Items depth (a ++ (cs ++ b))
  | more {depth a cs v b ds} (ha : Filler a) (h : Value depth cs v) (hb : Filler b)
      (hs : Items depth ds) : Items depth (a ++ (cs ++ (b ++ ',' :: ds)))

inductive Pairs : Nat → List Char → List (List String) → Prop
  | last {depth ks path a cs v b} (hk : Key ks path) (hl : path.length < limit) (ha : Space a)
      (h : Value depth cs v) (hb : Space b) : Pairs depth (ks ++ '=' :: (a ++ (cs ++ b))) [path]
  | more {depth ks path a cs v b ds paths} (hk : Key ks path) (hl : path.length < limit)
      (ha : Space a) (h : Value depth cs v) (hb : Space b) (hs : Pairs depth ds paths) :
      Pairs depth (ks ++ '=' :: (a ++ (cs ++ (b ++ ',' :: ds)))) (path :: paths)

end

end Value

inductive Line (α : Type) where
  | table (path : List String)
  | item (path : List String)
  | pair (path : List String) (value : α)

section Line

variable {α β : Type}

def Line.map (f : α → β) : Line α → Line β
  | .table path => .table path
  | .item path => .item path
  | .pair path value => .pair path (f value)

def Line.path (header : List String) : Line α → List String
  | .table path => path
  | .item path => path
  | .pair path _ => header ++ path

def Line.header (header : List String) : Line α → List String
  | .table path => path
  | .item path => path
  | .pair _ _ => header

def Line.text : Line (Option String) → Option String
  | .table _ => none
  | .item _ => none
  | .pair _ text => text

def placed (header : List String) : List (Line (Option String)) → List (List String × Option String)
  | [] => []
  | line :: lines => (line.path header, line.text) :: placed (line.header header) lines

end Line

inductive Statement (limit : Nat) : List Char → List (Line (Option String)) → Prop
  | blank : Statement limit [] []
  | table {ks path} (hk : Key ks path) (hl : path.length < limit) :
      Statement limit ('[' :: (ks ++ [']'])) [.table path]
  | item {ks path} (hk : Key ks path) (hl : path.length < limit) :
      Statement limit ('[' :: '[' :: (ks ++ [']', ']'])) [.item path]
  | pair {ks path a cs v} (hk : Key ks path) (hl : path.length < limit) (ha : Space a)
      (h : Value limit (limit - 1) cs v) :
      Statement limit (ks ++ '=' :: (a ++ cs)) [.pair path v]

inductive Lines (limit : Nat) : List Char → List (Line (Option String)) → Prop
  | last {a cs line b note} (ha : Space a) (h : Statement limit cs line) (hb : Space b)
      (hn : Comment note) : Lines limit (a ++ (cs ++ (b ++ note))) line
  | more {a cs line b note n ds lines} (ha : Space a) (h : Statement limit cs line)
      (hb : Space b) (hn : Comment note) (he : Newline n) (hs : Lines limit ds lines) :
      Lines limit (a ++ (cs ++ (b ++ (note ++ (n ++ ds))))) (line ++ lines)

inductive Document (limit : Nat) (s : String) (lines : List (Line (Option String))) : Prop
  | bare (h : Lines limit s.toList lines)
  | marked {cs} (hs : s.toList = '\ufeff' :: cs) (h : Lines limit cs lines)

end Predication.Toml
