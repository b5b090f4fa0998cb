import Predication.Database.Script

namespace Predication.Schema

def supported : Int := 1

def versionKey : String := "schema_version"

def version? (db : Database) : Except StoreError (Option Int) :=
  match db.getMetadata versionKey with
  | .error e => .error e
  | .ok none => .ok none
  | .ok (some text) =>
      match Text.readInt64? text.toList with
      | some v => .ok (some v)
      | none => .error (.invalid (.badVersion text))

def checkVersion : Option Int → Script Unit
  | none => .done ()
  | some found =>
      if supported < found then .fail (.invalid (.newerVersion found supported)) else .done ()

/-- Creates what is missing, then checks the version, then records the supported one. -/
def prepare : Script Unit := do
  Script.write Database.createMetadata
  Script.write Database.createDefinitions
  Script.write Database.createCategoryIndex
  checkVersion (← Script.query version?)
  record
where
  record : Script Unit :=
    .keeping (fun db => db.keptBySet versionKey (Text.intText supported))
      (.write fun db => db.setMetadata versionKey (Text.intText supported))

end Predication.Schema
