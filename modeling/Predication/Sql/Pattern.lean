import Predication.Sql.Value

namespace Predication.Sql

def isContinuation (b : UInt8) : Bool :=
  0x80 ≤ b && b < 0xc0

def characters : Bytes → List Bytes
  | [] => []
  | b :: rest =>
      match characters rest with
      | [] => [[b]]
      | c :: cs =>
          if 0xc0 ≤ b && c.head?.any isContinuation then (b :: c) :: cs
          else if isContinuation b && c.head?.any isContinuation then (b :: c) :: cs
          else [b] :: c :: cs

def tails {α : Type} : List α → List (List α)
  | [] => [[]]
  | a :: as => (a :: as) :: tails as

inductive Piece where
  | many
  | one
  | char (c : Bytes)
  | set (negated : Bool) (ranges : List (Bytes × Bytes))

def Piece.admits (fold : Bool) (p : Piece) (c : Bytes) : Bool :=
  match p with
  | .many => false
  | .one => true
  | .char d => if fold then c.map lowerByte == d.map lowerByte else c == d
  | .set negated ranges =>
      negated != ranges.any fun (low, high) =>
        compareBytes low c != .gt && compareBytes c high != .gt

def matchPieces (fold : Bool) : List Piece → List Bytes → Bool
  | [], s => s.isEmpty
  | .many :: ps, s => (tails s).any (matchPieces fold ps)
  | p :: ps, c :: s => p.admits fold c && matchPieces fold ps s
  | _ :: _, [] => false

/-- The pieces of a pattern with percent signs and underscores; the escape character takes their
meaning away. One at the end matches nothing. -/
def likePieces? (escape : Option Bytes) : List Bytes → Option (List Piece)
  | [] => some []
  | c :: rest =>
      if escape = some c then
        match rest with
        | [] => none
        | d :: rest => (likePieces? escape rest).map (.char d :: ·)
      else
        let p : Piece := if c = [37] then .many else if c = [95] then .one else .char c
        (likePieces? escape rest).map (p :: ·)

def like (escape : Option Bytes) (pattern text : Bytes) : Bool :=
  match likePieces? escape (characters pattern) with
  | none => false
  | some ps => matchPieces true ps (characters text)

def setRanges? : Nat → List Bytes → Option (List (Bytes × Bytes) × List Bytes)
  | 0, _ => none
  | fuel + 1, cs =>
      match cs with
      | [93] :: rest => some ([], rest)
      | [45] :: [93] :: rest => some ([([45], [45])], rest)
      | a :: [45] :: b :: rest =>
          if b = [93] then some ([(a, a), ([45], [45])], rest)
          else (setRanges? fuel rest).map fun (rs, after) => ((a, b) :: rs, after)
      | a :: rest => (setRanges? fuel rest).map fun (rs, after) => ((a, a) :: rs, after)
      | [] => none

def setPiece? (fuel : Nat) (cs : List Bytes) : Option (Piece × List Bytes) :=
  let (negated, cs) := match cs with
    | [94] :: rest => (true, rest)
    | cs => (false, cs)
  match cs with
  | [93] :: rest =>
      (setRanges? fuel rest).map fun (rs, after) => (.set negated (([93], [93]) :: rs), after)
  | cs => (setRanges? fuel cs).map fun (rs, after) => (.set negated rs, after)

def globPieces? : Nat → List Bytes → Option (List Piece)
  | 0, _ => none
  | _, [] => some []
  | fuel + 1, c :: rest =>
      if c = [42] then (globPieces? fuel rest).map (.many :: ·)
      else if c = [63] then (globPieces? fuel rest).map (.one :: ·)
      else if c = [91] then do
        let (p, rest) ← setPiece? (fuel + 1) rest
        (globPieces? fuel rest).map (p :: ·)
      else (globPieces? fuel rest).map (.char c :: ·)

def glob (pattern text : Bytes) : Bool :=
  let cs := characters pattern
  match globPieces? (cs.length + 1) cs with
  | none => false
  | some ps => matchPieces false ps (characters text)

end Predication.Sql
