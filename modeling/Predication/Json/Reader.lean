import Predication.Json
import Predication.Text.Decimal

namespace Predication.Json

open Text

def isBlank (c : Char) : Bool :=
  c == ' ' || c == '\t' || c == '\n' || c == '\r'

def skipBlank (cs : List Char) : List Char :=
  cs.dropWhile isBlank

def hexValue? (c : Char) : Option Nat :=
  if isDigit c then some (digitValue c)
  else if 'a' ≤ c && c ≤ 'f' then some (c.toNat - 'a'.toNat + 10)
  else if 'A' ≤ c && c ≤ 'F' then some (c.toNat - 'A'.toNat + 10)
  else none

def hex4? (a b c d : Char) : Option Nat :=
  match hexValue? a, hexValue? b, hexValue? c, hexValue? d with
  | some p, some q, some r, some s => some (((p * 16 + q) * 16 + r) * 16 + s)
  | _, _, _, _ => none

def isHighSurrogate (n : Nat) : Bool := 0xd800 ≤ n && n < 0xdc00

def isLowSurrogate (n : Nat) : Bool := 0xdc00 ≤ n && n < 0xe000

def surrogatePair (high low : Nat) : Char :=
  Char.ofNat (0x10000 + (high - 0xd800) * 0x400 + (low - 0xdc00))

def simpleEscape? (c : Char) : Option Char :=
  if c = '"' then some '"'
  else if c = '\\' then some '\\'
  else if c = '/' then some '/'
  else if c = 'b' then some '\x08'
  else if c = 'f' then some '\x0c'
  else if c = 'n' then some '\n'
  else if c = 'r' then some '\r'
  else if c = 't' then some '\t'
  else none

/-- What stands between quotes: characters, and numbers of 16 bits written in hexadecimal. -/
inductive Piece where
  | char (c : Char)
  | unit (n : Nat)

def readPieces : List Char → Option (List Piece × List Char)
  | [] => none
  | '"' :: rest => some ([], rest)
  | '\\' :: 'u' :: a :: b :: c :: d :: rest =>
      match hex4? a b c d with
      | none => none
      | some n => (readPieces rest).map fun (ps, after) => (.unit n :: ps, after)
  | '\\' :: c :: rest =>
      match simpleEscape? c with
      | none => none
      | some e => (readPieces rest).map fun (ps, after) => (.char e :: ps, after)
  | c :: rest =>
      if c = '\\' ∨ c.toNat < 0x20 then none
      else (readPieces rest).map fun (ps, after) => (.char c :: ps, after)

/-- The characters that pieces stand for: a high surrogate needs a low one right after it. -/
def piecesText? : List Piece → Option (List Char)
  | [] => some []
  | .char c :: ps => (piecesText? ps).map (c :: ·)
  | .unit n :: ps =>
      if isHighSurrogate n then
        match ps with
        | .unit low :: ps =>
            if isLowSurrogate low then (piecesText? ps).map (surrogatePair n low :: ·) else none
        | _ => none
      else if isLowSurrogate n then none
      else (piecesText? ps).map (Char.ofNat n :: ·)

def readText (cs : List Char) : Option (Option String × List Char) :=
  (readPieces cs).map fun (ps, rest) => ((piecesText? ps).map String.ofList, rest)

def skipDigits? (cs : List Char) : Option (List Char) :=
  match cs with
  | c :: rest => if isDigit c then some (rest.dropWhile isDigit) else none
  | [] => none

def wholePart? (cs : List Char) : Option (List Char × List Char) :=
  match cs with
  | [] => none
  | c :: rest =>
      if c = '0' then some (['0'], rest)
      else if isDigit c then some (c :: rest.takeWhile isDigit, rest.dropWhile isDigit)
      else none

def skipSign : List Char → List Char
  | '+' :: rest => rest
  | '-' :: rest => rest
  | cs => cs

def skipTail? (cs : List Char) : Option (List Char) := do
  let cs ← match cs with
    | '.' :: rest => skipDigits? rest
    | _ => some cs
  match cs with
  | 'e' :: rest => skipDigits? (skipSign rest)
  | 'E' :: rest => skipDigits? (skipSign rest)
  | _ => some cs

def readNumber (cs : List Char) : Option (Json × List Char) :=
  match cs with
  | '-' :: rest => do
      let (_, rest) ← wholePart? rest
      let rest ← skipTail? rest
      some (.number none, rest)
  | _ => do
      let (ds, rest) ← wholePart? cs
      let after ← skipTail? rest
      some (.number (if after.length = rest.length then some (digitsValue ds) else none), after)

mutual

def readValue : Nat → List Char → Option (Json × List Char)
  | 0, _ => none
  | fuel + 1, cs =>
      match skipBlank cs with
      | '"' :: rest => (readText rest).map fun (t, rest) => (.text t, rest)
      | '[' :: rest =>
          match skipBlank rest with
          | ']' :: after => some (.array [], after)
          | _ => (readItems fuel rest).map fun (items, rest) => (.array items, rest)
      | '\x7b' :: rest =>
          match skipBlank rest with
          | '\x7d' :: after => some (.object [], after)
          | _ => (readMembers fuel rest).map fun (members, rest) => (.object members, rest)
      | 'n' :: 'u' :: 'l' :: 'l' :: rest => some (.null, rest)
      | 't' :: 'r' :: 'u' :: 'e' :: rest => some (.truth true, rest)
      | 'f' :: 'a' :: 'l' :: 's' :: 'e' :: rest => some (.truth false, rest)
      | cs => readNumber cs

def readItems : Nat → List Char → Option (List Json × List Char)
  | 0, _ => none
  | fuel + 1, cs =>
      match readValue fuel cs with
      | none => none
      | some (value, rest) =>
          match skipBlank rest with
          | ']' :: after => some ([value], after)
          | ',' :: after => (readItems fuel after).map fun (items, rest) => (value :: items, rest)
          | _ => none

def readMembers : Nat → List Char → Option (List (Option String × Json) × List Char)
  | 0, _ => none
  | fuel + 1, cs =>
      match skipBlank cs with
      | '"' :: rest =>
          match readText rest with
          | none => none
          | some (key, rest) =>
              match skipBlank rest with
              | ':' :: rest =>
                  match readValue fuel rest with
                  | none => none
                  | some (value, rest) =>
                      let member := (key, value)
                      match skipBlank rest with
                      | '\x7d' :: after => some ([member], after)
                      | ',' :: after =>
                          (readMembers fuel after).map fun (members, rest) =>
                            (member :: members, rest)
                      | _ => none
              | _ => none
      | _ => none

end

/-- Reads a whole text. A call that does not consume a character is followed by one that does, so
twice the length bounds the calls. -/
def read? (s : String) : Option Json :=
  match readValue (2 * s.toList.length + 2) s.toList with
  | some (value, rest) => if rest.all isBlank then some value else none
  | none => none

section Zero

variable (cs : List Char)

theorem readValue_zero : readValue 0 cs = none := by
  rw [readValue]

theorem readItems_zero : readItems 0 cs = none := by
  rw [readItems]

theorem readMembers_zero : readMembers 0 cs = none := by
  rw [readMembers]

end Zero

end Predication.Json
