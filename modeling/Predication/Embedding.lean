import Predication.Binary32.Printer
import Predication.Binary32.Reader
import Predication.Text.Blank

namespace Predication

structure EmbeddingError where
  token : String
  deriving DecidableEq, Repr

def EmbeddingError.message (e : EmbeddingError) : String :=
  "failed to parse float '" ++ e.token ++ "': invalid float literal"

abbrev Embedding := List Binary32

namespace Embedding

def readTokens : List (List Char) → Except EmbeddingError Embedding
  | [] => .ok []
  | t :: ts =>
      match Binary32.read? t with
      | none => .error ⟨String.ofList t⟩
      | some x =>
          match readTokens ts with
          | .error e => .error e
          | .ok xs => .ok (x :: xs)

/-- The numbers of a text in order; the first token that is no number is the error. -/
def parse (s : String) : Except EmbeddingError Embedding :=
  readTokens (Text.tokens s.toList)

def format (xs : Embedding) : String :=
  " ".intercalate (xs.map fun x => String.ofList (x.text .plain))

def debug (xs : Embedding) : String :=
  "[" ++ ", ".intercalate (xs.map fun x => String.ofList (x.text .diagnostic)) ++ "]"

def numEq : Embedding → Embedding → Bool
  | [], [] => true
  | x :: xs, y :: ys => x.numEq y && numEq xs ys
  | _, _ => false

theorem readTokens_append (ts us : List (List Char)) :
    readTokens (ts ++ us) =
      match readTokens ts with
      | .error e => .error e
      | .ok xs =>
          match readTokens us with
          | .error e => .error e
          | .ok ys => .ok (xs ++ ys) := by
  induction ts with
  | nil => cases h : readTokens us <;> simp [readTokens, h]
  | cons t ts ih =>
      simp only [List.cons_append, readTokens, ih]
      cases Binary32.read? t with
      | none => rfl
      | some x =>
          cases readTokens ts with
          | error e => rfl
          | ok xs => cases readTokens us <;> rfl

end Embedding

end Predication
