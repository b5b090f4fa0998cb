import Predication.Command
import Predication.Command.LogFilter
import Predication.Command.Report
import Predication.Definition.SeedFile
import Predication.Session.Opening
import Predication.Statement.WireText
import Predication.Tag.Verb
import Predication.Text.Terminal

namespace Predication

structure Environment where
  databasePath : Option String := none
  dataDirectory : Option String := none
  logFilter : Option String := none

def Invocation.databasePath (i : Invocation) (env : Environment) : String :=
  match i.db, env.databasePath with
  | some path, _ => path
  | none, some path => path
  | none, none => Path.within (env.dataDirectory.getD "db") "definitions.db"

def logTarget : String := "nxl"

def logFields : List String := ["message"]

/-- Whether the program's own warnings are shown; a verbose run shows them all. A filter without an
answer ends the program. -/
def Invocation.showsWarnings? (i : Invocation) (env : Environment) : Option Bool :=
  if i.verbose then some true
  else LogFilter.passesWarnings? (env.logFilter.getD "") logTarget logFields

namespace Command

def reporting {α : Type} (s : Session) (script : Script α) (context : StoreError → CommandError)
    (f : α → Session → Report × Session) : Report × Session :=
  match s.run script with
  | (.error e, s) => (.failure (context e), s)
  | (.ok a, s) => f a s

def symbolLine (d : Definition) : String :=
  "Name: " ++ d.name ++ ", Thing: " ++ d.category ++ ", Embedding: " ++ d.embedding

def showSymbols (s : Session) : Report × Session :=
  reporting s Store.all .readSymbols fun ds s =>
    (.ofLines ("--- Data in system_symbols ---" :: ds.map symbolLine), s)

def loadSeed (t : FileTree) (path : String) : Except StoreError (List Definition) :=
  match t.text? path with
  | none => .error .file
  | some content => Definition.readSeed content

def setupWith (s : Session) (ds : List Definition) : Report × Session :=
  reporting s (Store.seed (Definition.wellKnown ++ ds)) .seed fun _ s => showSymbols s

def runSetup (s : Session) : Option String → Report × Session
  | none => setupWith s []
  | some path =>
      match loadSeed s.tree path with
      | .error e => (.failure (.loadSeed path e), s)
      | .ok ds => setupWith s ds

def runLookup (s : Session) (name : String) : Report × Session :=
  reporting s (Store.lookup? name) .lookup fun found s =>
    match found with
    | none => (.failure (.notFound name), s)
    | some d =>
        match d.vector with
        | .error e => (.failure (.malformed name e), s)
        | .ok xs => (.ofLines ["category: " ++ d.tag.raw, "embedding: " ++ xs.debug], s)

def runStats (path : String) (s : Session) : Report × Session :=
  reporting s Store.count .count fun n s =>
    reporting s Store.schemaVersion .version fun version s =>
      reporting s (Store.getMetadata Store.lastSeedKey) .metadata fun lastSeed s =>
        (.ofLines [
          "db:        " ++ path,
          "schema:    v" ++ Text.intText (version.getD 0),
          "symbols:   " ++ Text.natText n,
          "last seed: " ++ lastSeed.getD "never"], s)

def runRemove (s : Session) (name : String) : Report × Session :=
  reporting s (Store.remove name) .remove fun removed s =>
    if removed then (.ofLines ["removed " ++ name], s) else (.failure (.notFound name), s)

def runUpsert (s : Session) (d : Definition) : Report × Session :=
  reporting s (Store.upsert d) (.store d.name) fun _ s => (.ofLines ["stored " ++ d.name], s)

def expansionReport (axis : ExpansionAxis) (showsWarnings : Bool) (s : Statement) : Report where
  lines := (s.expand axis).map fun t => t.toWire.text
  warnings :=
    if s.isComposite || !showsWarnings then []
    else [Text.forTerminal ("statement is already atomic: " ++ s.render)]

def runExpand (t : FileTree) (path : String) (axis : ExpansionAxis) (showsWarnings : Bool) :
    Report :=
  match t.text? path with
  | none => .failure (.readFile path)
  | some content =>
      match WireStatement.read? content with
      | none => .failure (.parseStatement path)
      | some w =>
          match w.toStatement [] with
          | .error e => .failure (.expandStatement path e)
          | .ok s => expansionReport axis showsWarnings s

def verbLabel (raw : String) (core : Bool) : String :=
  if core then (Tag.ofRaw raw : Tag CoreVerb).label else (Tag.ofRaw raw : Tag ModalVerb).label

def withStore (t : FileTree) (path : String) (f : Session → Report × Session) :
    Report × FileTree :=
  match t.openStore path with
  | .error (e, t) => (.failure (.openStore path e), t)
  | .ok s =>
      let (r, s) := f s
      (r, s.close)

end Command

/-- Carries out a command. An embedding from the command line is read before the store is opened; a
seed file is read after that. -/
def Command.run (c : Command) (path : String) (showsWarnings : Bool) (t : FileTree) :
    Report × FileTree :=
  match c with
  | .setup seedFile => withStore t path fun s => runSetup s seedFile
  | .symbols => withStore t path showSymbols
  | .lookup name => withStore t path fun s => runLookup s name
  | .stats => withStore t path (runStats path)
  | .remove name => withStore t path fun s => runRemove s name
  | .upsert d =>
      match d.vector with
      | .error e => (.failure (.badEmbedding e), t)
      | .ok _ => withStore t path fun s => runUpsert s d
  | .expand file axis => (runExpand t file axis showsWarnings, t)
  | .verb raw core => (.ofLines [verbLabel raw core], t)

/-- Carries out an invocation; the log filter is read before the command is looked at. -/
def Invocation.run (i : Invocation) (env : Environment) (t : FileTree) : Report × FileTree :=
  match i.showsWarnings? env with
  | none => (.abort, t)
  | some showsWarnings => i.command.run (i.databasePath env) showsWarnings t

end Predication
