import Predication.Statement.Wire
import Predication.Store.Error

namespace Predication

inductive CommandError where
  | openStore (path : String) (cause : StoreError)
  | loadSeed (path : String) (cause : StoreError)
  | seed (cause : StoreError)
  | readSymbols (cause : StoreError)
  | lookup (cause : StoreError)
  | notFound (name : String)
  | malformed (name : String) (cause : EmbeddingError)
  | count (cause : StoreError)
  | version (cause : StoreError)
  | metadata (cause : StoreError)
  | remove (cause : StoreError)
  | badEmbedding (cause : EmbeddingError)
  | store (name : String) (cause : StoreError)
  | readFile (path : String)
  | parseStatement (path : String)
  | expandStatement (path : String) (cause : WireError)
  deriving DecidableEq

def CommandError.message : CommandError → String
  | .openStore path _ => "failed to open symbol store at " ++ path
  | .loadSeed path _ => "failed to load seed file " ++ path
  | .seed _ => "failed to seed symbols"
  | .readSymbols _ => "failed to read symbols"
  | .lookup _ => "lookup failed"
  | .notFound name => "symbol not found: " ++ name
  | .malformed name _ => "stored embedding for " ++ name ++ " is malformed"
  | .count _ => "failed to count symbols"
  | .version _ => "failed to read schema version"
  | .metadata _ => "failed to read metadata"
  | .remove _ => "remove failed"
  | .badEmbedding _ => "invalid embedding"
  | .store name _ => "failed to store " ++ name
  | .readFile path => "failed to read " ++ path
  | .parseStatement path => "failed to parse statement in " ++ path
  | .expandStatement path _ => "cannot expand statement in " ++ path

def CommandError.cause? : CommandError → Option String
  | .openStore _ c => c.message?
  | .loadSeed _ c => c.message?
  | .seed c => c.message?
  | .readSymbols c => c.message?
  | .lookup c => c.message?
  | .notFound _ => none
  | .malformed _ c => some c.message
  | .count c => c.message?
  | .version c => c.message?
  | .metadata c => c.message?
  | .remove c => c.message?
  | .badEmbedding c => some c.message
  | .store _ c => c.message?
  | .readFile _ => none
  | .parseStatement _ => none
  | .expandStatement _ c => some c.message

structure Report where
  lines : List String := []
  warnings : List String := []
  error : Option CommandError := none
  aborted : Bool := false
  deriving DecidableEq

namespace Report

def output (r : Report) : String :=
  String.join (r.lines.map (· ++ "\n"))

def failure (e : CommandError) : Report :=
  { error := some e }

def abort : Report :=
  { aborted := true }

def ofLines (lines : List String) : Report :=
  { lines := lines }

def exitCode (r : Report) : Nat :=
  if r.aborted then 101 else if r.error.isSome then 1 else 0

end Report

end Predication
