import Predication.Command.Arguments
import Predication.Command.Execution
import Predication.Database.Text

namespace Predication.Main

def usage : String :=
  "\n".intercalate [
    "Usage: nxl [--db PATH] [--verbose] COMMAND",
    "",
    "Commands:",
    "  setup [--seed-file PATH]          create the store and load the well-known symbols",
    "  symbols                           list every stored symbol",
    "  lookup NAME                       show the category and the embedding of a symbol",
    "  stats                             show the state of the store",
    "  remove NAME                       delete a symbol",
    "  upsert NAME CATEGORY EMBEDDING    insert or replace a symbol",
    "  expand PATH [--attributes]        expand a composite statement",
    "  verb RAW [--core]                 show the label of a verb"]

def environment : IO Environment := do
  return {
    databasePath := ← IO.getEnv "NXL_DB_PATH"
    dataDirectory := ← IO.getEnv "NXL_DATA_DIR"
    logFilter := ← IO.getEnv "RUST_LOG" }

def pathOf (names : List String) : String :=
  "/" ++ FileTree.join names

def loadNode (t : FileTree) (names : List String) : IO FileTree := do
  let path := (← IO.currentDir) / pathOf names
  if ← path.isDir then return t.put names .directory
  if ← path.pathExists then
    let bytes ← IO.FS.readBinFile path
    match (String.fromUTF8? bytes).bind Database.read? with
    | some db => return t.put names (.database db .rollback)
    | none => return t.put names (.file bytes)
  return t

def loadPath (t : FileTree) (path : String) : IO FileTree := do
  let names := t.namesOf path
  let mut tree := t
  for i in List.range names.length do
    tree ← loadNode tree (names.take (i + 1))
  return tree

def fileOf (address : String) : String :=
  match Address.read? address with
  | some a => a.path
  | none => address

def touched (i : Invocation) (env : Environment) : List String :=
  i.databasePath env :: fileOf (i.databasePath env) ::
    match i.command with
    | .setup (some file) => [file]
    | .expand file _ => [file]
    | _ => []

def storeDatabases (t : FileTree) : IO Unit := do
  for (key, node) in t.nodes do
    match node with
    | .database db _ =>
        let names := Path.pieces key
        IO.FS.createDirAll (pathOf names.dropLast)
        IO.FS.writeFile (pathOf names) db.text
    | _ => pure ()

def display (r : Report) : IO Unit := do
  for w in r.warnings do
    IO.eprintln ("WARN " ++ logTarget ++ ": " ++ w)
  IO.print r.output
  if let some e := r.error then
    IO.eprintln ("Error: " ++ e.message)
    if let some c := e.cause? then
      IO.eprintln ("\nCaused by:\n    " ++ c)

def run (i : Invocation) : IO UInt32 := do
  let env ← environment
  let directory := Path.pieces (← IO.currentDir).toString
  let mut tree := FileTree.around (directory.filter fun n => !n.isEmpty)
  for path in touched i env do
    tree ← loadPath tree path
  let (report, after) := i.run env tree
  storeDatabases after
  display report
  return UInt32.ofNat report.exitCode

end Predication.Main

def main (args : List String) : IO UInt32 := do
  match Predication.Arguments.parse args with
  | .ok i => Predication.Main.run i
  | .error .help =>
      IO.println Predication.Main.usage
      return 0
  | .error .usage =>
      IO.eprintln Predication.Main.usage
      return 2
