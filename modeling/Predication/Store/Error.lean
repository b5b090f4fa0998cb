import Predication.Embedding

namespace Predication

inductive InvalidData where
  | emptyName
  | badVersion (text : String)
  | newerVersion (found supported : Int)
  | badEmbedding (name : String) (cause : EmbeddingError)
  deriving DecidableEq

def InvalidData.message : InvalidData → String
  | .emptyName => "symbol name must not be empty"
  | .badVersion text => "bad schema_version '" ++ text ++ "'"
  | .newerVersion found supported =>
      "database schema v" ++ Text.intText found ++ " is newer than supported v" ++
        Text.intText supported
  | .badEmbedding name cause => "symbol '" ++ name ++ "': " ++ cause.message

inductive StoreError where
  | engine
  | invalid (reason : InvalidData)
  | embedding (cause : EmbeddingError)
  | seedFormat
  | file
  deriving DecidableEq

def StoreError.message? : StoreError → Option String
  | .invalid reason => some ("invalid data: " ++ reason.message)
  | .embedding cause => some cause.message
  | .engine => none
  | .seedFormat => none
  | .file => none

end Predication
