import Predication.Sql.Value
import Predication.Text.Decimal

namespace Predication.Sql

/-- A word is a keyword or a name, in small letters. A quoted name keeps its letters; one in double
quotes can be meant as a text. -/
inductive Token where
  | word (name : String)
  | quoted (name : String) (double : Bool)
  | text (s : String)
  | blob (bytes : Bytes)
  | number (s : String)
  | mark (s : String)
  deriving DecidableEq

def isWordChar (c : Char) : Bool :=
  c.isAlphanum || c == '_' || c == '$' || 0x80 ≤ c.toNat

def isBlankChar (c : Char) : Bool :=
  c == ' ' || c == '\t' || c == '\n' || c == '\x0c' || c == '\r'

/-- The text up to a closing quote, which is written twice inside, and what follows. A text without
an end is refused. -/
def quotedText? (close : Char) : List Char → Option (List Char × List Char)
  | [] => none
  | [c] => if c = close then some ([], []) else none
  | c :: d :: rest =>
      if c = close then
        if d = close && close != ']' then
          (quotedText? close rest).map fun (inside, after) => (c :: inside, after)
        else some ([], d :: rest)
      else (quotedText? close (d :: rest)).map fun (inside, after) => (c :: inside, after)

def afterComment : List Char → List Char
  | '*' :: '/' :: rest => rest
  | _ :: rest => afterComment rest
  | [] => []

def hexDigit? (c : Char) : Option Nat :=
  if '0' ≤ c ∧ c ≤ '9' then some (c.toNat - 48)
  else if 'a' ≤ c ∧ c ≤ 'f' then some (c.toNat - 87)
  else if 'A' ≤ c ∧ c ≤ 'F' then some (c.toNat - 55)
  else none

def hexBytes? : List Char → Option Bytes
  | [] => some []
  | h :: l :: rest => do
      let b := 16 * (← hexDigit? h) + (← hexDigit? l)
      return UInt8.ofNat b :: (← hexBytes? rest)
  | _ => none

def numberText (cs : List Char) : List Char × List Char :=
  match cs with
  | '0' :: x :: rest =>
      if (x = 'x' ∨ x = 'X') ∧ (rest.head?.bind hexDigit?).isSome then
        ('0' :: 'x' :: rest.takeWhile (fun c => (hexDigit? c).isSome),
          rest.dropWhile (fun c => (hexDigit? c).isSome))
      else decimal cs
  | _ => decimal cs
where
  decimal (cs : List Char) : List Char × List Char :=
    let front := cs.takeWhile Text.isDigit
    let rest := cs.dropWhile Text.isDigit
    let (point, rest) := match rest with
      | '.' :: rest => ('.' :: rest.takeWhile Text.isDigit, rest.dropWhile Text.isDigit)
      | rest => ([], rest)
    let (power, rest) := exponentText rest
    (front ++ point ++ power, rest)
  exponentText (cs : List Char) : List Char × List Char :=
    match cs with
    | e :: rest =>
        if e = 'e' ∨ e = 'E' then
          let (sign, digits) := match rest with
            | '+' :: rest => (['+'], rest)
            | '-' :: rest => (['-'], rest)
            | rest => ([], rest)
          if (digits.takeWhile Text.isDigit).isEmpty then ([], cs)
          else ('e' :: sign ++ digits.takeWhile Text.isDigit, digits.dropWhile Text.isDigit)
        else ([], cs)
    | [] => ([], [])

def operator? : List Char → Option (String × List Char)
  | '-' :: '>' :: '>' :: rest => some ("->>", rest)
  | '-' :: '>' :: rest => some ("->", rest)
  | '|' :: '|' :: rest => some ("||", rest)
  | '=' :: '=' :: rest => some ("=", rest)
  | '<' :: '>' :: rest => some ("<>", rest)
  | '!' :: '=' :: rest => some ("<>", rest)
  | '<' :: '=' :: rest => some ("<=", rest)
  | '>' :: '=' :: rest => some (">=", rest)
  | '<' :: '<' :: rest => some ("<<", rest)
  | '>' :: '>' :: rest => some (">>", rest)
  | c :: rest =>
      if "()+-*/%|&~=<>,;.".toList.contains c then some (String.singleton c, rest) else none
  | [] => none

/-- The tokens of a text of at most `fuel` characters; comments and blanks are left out. A character
that starts no token makes the text unreadable. -/
def tokens? : Nat → List Char → Option (List Token)
  | _, [] => some []
  | 0, _ => none
  | fuel + 1, c :: rest =>
      if isBlankChar c then tokens? fuel rest
      else if c = '-' ∧ rest.head? = some '-' then tokens? fuel (rest.dropWhile (· != '\n'))
      else if c = '/' ∧ rest.head? = some '*' then tokens? fuel (afterComment (rest.drop 1))
      else if (c = 'x' ∨ c = 'X') ∧ rest.head? = some '\'' then do
        let (inside, after) ← quotedText? '\'' (rest.drop 1)
        return .blob (← hexBytes? inside) :: (← tokens? fuel after)
      else if Text.isDigit c || (c == '.' && (rest.head?.any Text.isDigit)) then do
        let (number, after) := numberText (c :: rest)
        if after.head?.any isWordChar then none
        else return .number (String.ofList number) :: (← tokens? fuel after)
      else if isWordChar c then do
        let name := String.ofList ((c :: rest).takeWhile isWordChar)
        return .word name.toLower :: (← tokens? fuel (rest.dropWhile isWordChar))
      else if c = '\'' then do
        let (inside, after) ← quotedText? c rest
        return .text (String.ofList inside) :: (← tokens? fuel after)
      else if c = '"' ∨ c = '\x60' ∨ c = '[' then do
        let (inside, after) ← quotedText? (if c = '[' then ']' else c) rest
        return .quoted (String.ofList inside) (c == '"') :: (← tokens? fuel after)
      else do
        let (op, after) ← operator? (c :: rest)
        return .mark op :: (← tokens? fuel after)

def tokenize? (sql : String) : Option (List Token) :=
  tokens? sql.length sql.toList

end Predication.Sql
