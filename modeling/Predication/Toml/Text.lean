import Predication.Json.Reader

namespace Predication.Toml

open Json (hexValue? hex4?)

/-- Characters that may stand in a comment or a text as they are; the quotes and the backslash are
for the reader of the text to tell apart. -/
def isPlain (c : Char) : Bool :=
  c == '\t' || (0x20 ≤ c.toNat && c.toNat != 0x7f)

def isSpace (c : Char) : Bool :=
  c == ' ' || c == '\t'

abbrev TextRead := Option (List Char × List Char)

def TextRead.cons (c : Char) (r : TextRead) : TextRead :=
  r.map fun (cs, rest) => (c :: cs, rest)

def scalarValue? (n : Nat) : Option Char :=
  if n < 0xd800 ∨ (0xe000 ≤ n ∧ n < 0x110000) then some (Char.ofNat n) else none

def shortEscape? (c : Char) : Option Char :=
  if c = 'b' then some '\x08'
  else if c = 't' then some '\t'
  else if c = 'n' then some '\n'
  else if c = 'f' then some '\x0c'
  else if c = 'r' then some '\r'
  else if c = '"' then some '"'
  else if c = '\\' then some '\\'
  else none

def code4? (a b c d : Char) : Option Char :=
  (hex4? a b c d).bind scalarValue?

def code8? (a b c d e f g h : Char) : Option Char :=
  match hex4? a b c d, hex4? e f g h with
  | some high, some low => scalarValue? (high * 0x10000 + low)
  | _, _ => none

def readBasic : List Char → TextRead
  | [] => none
  | '"' :: rest => some ([], rest)
  | '\\' :: 'u' :: a :: b :: c :: d :: rest =>
      match code4? a b c d with
      | some x => (readBasic rest).cons x
      | none => none
  | '\\' :: 'U' :: a :: b :: c :: d :: e :: f :: g :: h :: rest =>
      match code8? a b c d e f g h with
      | some x => (readBasic rest).cons x
      | none => none
  | '\\' :: c :: rest =>
      match shortEscape? c with
      | some x => (readBasic rest).cons x
      | none => none
  | c :: rest => if c != '\\' && isPlain c then (readBasic rest).cons c else none

def readLiteral : List Char → TextRead
  | [] => none
  | '\x27' :: rest => some ([], rest)
  | c :: rest => if isPlain c then (readLiteral rest).cons c else none

/-- What three quotes of a text on several lines end: up to two more quotes right after them belong
to the text. -/
def closeQuotes (quote : Char) : List Char → List Char × List Char
  | c :: d :: rest =>
      if c = quote then if d = quote then ([c, d], rest) else ([c], d :: rest)
      else ([], c :: d :: rest)
  | [c] => if c = quote then ([c], []) else ([], [c])
  | [] => ([], [])

def startsNewline : List Char → Bool
  | '\n' :: _ => true
  | '\r' :: '\n' :: _ => true
  | _ => false

/-- A basic text on several lines. With `folding`, blanks and line ends are passed over, as they
are after a backslash at the end of a line. -/
def readBasicLines (folding : Bool) : List Char → TextRead
  | [] => none
  | '"' :: '"' :: '"' :: rest => some (closeQuotes '"' rest)
  | '\r' :: '\n' :: rest =>
      if folding then readBasicLines true rest else (readBasicLines false rest).cons '\n'
  | '\\' :: 'u' :: a :: b :: c :: d :: rest =>
      match code4? a b c d with
      | some x => (readBasicLines false rest).cons x
      | none => none
  | '\\' :: 'U' :: a :: b :: c :: d :: e :: f :: g :: h :: rest =>
      match code8? a b c d e f g h with
      | some x => (readBasicLines false rest).cons x
      | none => none
  | '\\' :: c :: rest =>
      match shortEscape? c with
      | some x => (readBasicLines false rest).cons x
      | none =>
          if startsNewline ((c :: rest).dropWhile isSpace) then readBasicLines true (c :: rest)
          else none
  | c :: rest =>
      if folding && (isSpace c || c == '\n') then readBasicLines true rest
      else if c == '\n' || (c != '\\' && isPlain c) then (readBasicLines false rest).cons c
      else none

def readLiteralLines : List Char → TextRead
  | [] => none
  | '\x27' :: '\x27' :: '\x27' :: rest => some (closeQuotes '\x27' rest)
  | '\r' :: '\n' :: rest => (readLiteralLines rest).cons '\n'
  | c :: rest => if c == '\n' || isPlain c then (readLiteralLines rest).cons c else none

def skipFirstNewline : List Char → List Char
  | '\n' :: rest => rest
  | '\r' :: '\n' :: rest => rest
  | cs => cs

def readText? : List Char → TextRead
  | '"' :: '"' :: '"' :: rest => readBasicLines false (skipFirstNewline rest)
  | '\x27' :: '\x27' :: '\x27' :: rest => readLiteralLines (skipFirstNewline rest)
  | '"' :: rest => readBasic rest
  | '\x27' :: rest => readLiteral rest
  | _ => none

end Predication.Toml
