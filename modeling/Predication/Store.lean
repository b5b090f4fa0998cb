import Predication.Store.Schema

namespace Predication.Store

def getMetadata (key : String) : Script (Option String) :=
  .query fun db => db.getMetadata key

def setMetadata (key value : String) : Script Unit :=
  .keeping (fun db => db.keptBySet key value) (.write fun db => db.setMetadata key value)

def schemaVersion : Script (Option Int) :=
  .query Schema.version?

def upsert (d : Definition) : Script Unit :=
  .keeping (fun db => db.keptByPut d) (.write fun db => db.put d)

def remove (name : String) : Script Bool :=
  .keeping (fun db => db.keptByDelete name) (.commit fun db => db.delete name)

def all : Script (List Definition) :=
  .query Database.listDefinitions

def lookup? (name : String) : Script (Option Definition) :=
  .query fun db => db.definition? name

def count : Script Nat :=
  .query Database.rowCount

def resolveAll : Script (List ResolvedDefinition) :=
  .query fun db => db.listDefinitions.map fun ds => ds.map Definition.resolve

def lastSeedKey : String := "last_seed_count"

def checkEmbeddings : List Definition → Except StoreError Unit
  | [] => .ok ()
  | d :: ds =>
      match d.vector with
      | .error e => .error (.invalid (.badEmbedding d.name e))
      | .ok _ => checkEmbeddings ds

/-- Writes a batch in one transaction, after its embeddings have been checked, and then records
its size; the answer is the size. -/
def seed (ds : List Definition) : Script Nat := do
  Script.query fun _ => checkEmbeddings ds
  Script.write fun db => db.putAll ds
  setMetadata lastSeedKey (Text.natText ds.length)
  Script.done ds.length

end Predication.Store
