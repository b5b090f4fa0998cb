import Predication.Toml
import Predication.Toml.Scalar
import Predication.Toml.Text

namespace Predication.Toml

def skipSpace (cs : List Char) : List Char :=
  cs.dropWhile isSpace

def isBareKeyChar (c : Char) : Bool :=
  Text.isDigit c || ('a' ≤ c && c ≤ 'z') || ('A' ≤ c && c ≤ 'Z') || c == '-' || c == '_'

def readKeyPart? : List Char → TextRead
  | '"' :: rest => readBasic rest
  | '\x27' :: rest => readLiteral rest
  | cs =>
      if (cs.takeWhile isBareKeyChar).isEmpty then none
      else some (cs.takeWhile isBareKeyChar, cs.dropWhile isBareKeyChar)

def readKey? : Nat → List Char → Option (List String × List Char)
  | 0, _ => none
  | parts + 1, cs =>
      match readKeyPart? (skipSpace cs) with
      | none => none
      | some (part, rest) =>
          match skipSpace rest with
          | '.' :: rest =>
              (readKey? parts rest).map fun (more, rest) => (String.ofList part :: more, rest)
          | rest => some ([String.ofList part], rest)

/-- A key has fewer parts, and values are nested less deeply, than this unless another limit is
given. -/
def depthLimit : Nat := 80

def splitKey? (parts : List String) : Option (List String × String) :=
  parts.getLast?.map fun key => (parts.dropLast, key)

def skipNewline? : List Char → Option (List Char)
  | '\n' :: rest => some rest
  | '\r' :: '\n' :: rest => some rest
  | _ => none

def skipFiller : Nat → List Char → List Char
  | 0, cs => cs
  | fuel + 1, cs =>
      match skipSpace cs with
      | '#' :: rest =>
          match skipNewline? (rest.dropWhile isPlain) with
          | some rest => skipFiller fuel rest
          | none => '#' :: rest
      | cs =>
          match skipNewline? cs with
          | some rest => skipFiller fuel rest
          | none => cs

def skipAllFiller (cs : List Char) : List Char :=
  skipFiller cs.length cs

mutual

/-- Reads a value. After the limit, the first argument bounds the number of nested calls, the second
the levels of arrays and tables in braces. -/
def readValue (limit : Nat) : Nat → Nat → List Char → Option (Toml × List Char)
  | 0, _, _ => none
  | fuel + 1, depth, cs =>
      match cs with
      | '[' :: rest =>
          match depth with
          | 0 => none
          | depth + 1 =>
              (readItems limit fuel depth rest).map fun (items, rest) => (.array items, rest)
      | '\x7b' :: rest =>
          match depth with
          | 0 => none
          | depth + 1 =>
              match skipSpace rest with
              | '\x7d' :: rest => some (.table .inline [], rest)
              | _ =>
                  (readPairs limit fuel depth [] rest).map fun (entries, rest) =>
                    (.table .inline entries, rest)
      | '"' :: _ => (readText? cs).map fun (t, rest) => (.text (String.ofList t), rest)
      | '\x27' :: _ => (readText? cs).map fun (t, rest) => (.text (String.ofList t), rest)
      | _ => (skipScalar? cs).map fun rest => (.scalar, rest)

def readItems (limit : Nat) : Nat → Nat → List Char → Option (List Toml × List Char)
  | 0, _, _ => none
  | fuel + 1, depth, cs =>
      match skipAllFiller cs with
      | ']' :: rest => some ([], rest)
      | cs =>
          match readValue limit fuel depth cs with
          | none => none
          | some (item, rest) =>
              match skipAllFiller rest with
              | ']' :: rest => some ([item], rest)
              | ',' :: rest =>
                  (readItems limit fuel depth rest).map fun (items, rest) => (item :: items, rest)
              | _ => none

def readPairs (limit : Nat) :
    Nat → Nat → Entries → List Char → Option (Entries × List Char)
  | 0, _, _, _ => none
  | fuel + 1, depth, entries, cs =>
      match readKey? (limit - 1) cs with
      | some (parts, '=' :: rest) =>
          match readValue limit fuel depth (skipSpace rest), splitKey? parts with
          | some (value, rest), some (path, key) =>
              match addDotted? true key value path entries with
              | none => none
              | some entries =>
                  match skipSpace rest with
                  | '\x7d' :: rest => some (entries, rest)
                  | ',' :: rest => readPairs limit fuel depth entries rest
                  | _ => none
          | _, _ => none
      | _ => none

end

def skipLineEnd? (cs : List Char) : Option (List Char) :=
  let cs := match skipSpace cs with
    | '#' :: rest => rest.dropWhile isPlain
    | cs => cs
  if cs.isEmpty then some [] else skipNewline? cs

structure Draft where
  root : Entries := []
  header : List String := []

def Draft.addPair? (d : Draft) (parts : List String) (value : Toml) : Option Draft :=
  (splitKey? parts).bind fun (path, key) =>
    (under? (addDotted? true key value path) d.header d.root).map fun root => { d with root }

def Draft.openTable? (d : Draft) (parts : List String) : Option Draft :=
  (splitKey? parts).bind fun (path, key) =>
    (under? (Toml.openTable? key) path d.root).map fun root => ⟨root, parts⟩

def Draft.openItem? (d : Draft) (parts : List String) : Option Draft :=
  (splitKey? parts).bind fun (path, key) =>
    (under? (Toml.openItem? key) path d.root).map fun root => ⟨root, parts⟩

def readLine? (limit : Nat) (d : Draft) (cs : List Char) : Option (Draft × List Char) :=
  match cs with
  | '[' :: '[' :: rest =>
      match readKey? (limit - 1) rest with
      | some (parts, ']' :: ']' :: rest) => do
          some (← d.openItem? parts, ← skipLineEnd? rest)
      | _ => none
  | '[' :: rest =>
      match readKey? (limit - 1) rest with
      | some (parts, ']' :: rest) => do
          some (← d.openTable? parts, ← skipLineEnd? rest)
      | _ => none
  | '#' :: _ => (skipLineEnd? cs).map fun rest => (d, rest)
  | '\n' :: rest => some (d, rest)
  | '\r' :: '\n' :: rest => some (d, rest)
  | _ =>
      match readKey? (limit - 1) cs with
      | some (parts, '=' :: rest) => do
          let rest := skipSpace rest
          let (value, rest) ← readValue limit (2 * rest.length + 2) (limit - 1) rest
          some (← d.addPair? parts value, ← skipLineEnd? rest)
      | _ => none

def readLines? (limit : Nat) : Nat → Draft → List Char → Option Draft
  | fuel, d, cs =>
      match skipSpace cs with
      | [] => some d
      | cs =>
          match fuel with
          | 0 => none
          | fuel + 1 =>
              match readLine? limit d cs with
              | none => none
              | some (d, rest) => readLines? limit fuel d rest

def skipByteOrderMark : List Char → List Char
  | '\ufeff' :: rest => rest
  | cs => cs

def read? (s : String) (limit : Nat := depthLimit) : Option Entries :=
  (readLines? limit s.toList.length {} (skipByteOrderMark s.toList)).map Draft.root

end Predication.Toml
