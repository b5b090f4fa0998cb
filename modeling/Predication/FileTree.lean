import Predication.Database
import Predication.Database.Address
import Predication.FileTree.Path

/-!
A tree of files, some of which are databases. A node is known by the names on the way to it from
the root; a path without a slash in front starts at the working directory.
-/

namespace Predication

/-- Where a database keeps what a transaction changes until it is done: what was there before in a
rollback journal, or what is new in a log. -/
inductive Journal where
  | rollback
  | log
  deriving DecidableEq

/-- A device swallows what is written to it, and there is nothing in it to read. -/
inductive FileNode where
  | directory
  | device
  | file (bytes : ByteArray)
  | database (db : Database) (journal : Journal)

structure FileTree where
  workingDirectory : List String := []
  nodes : KeyMap String FileNode := []

inductive PathError where
  | absent
  | present
  | notDirectory
  | tooLong
  | malformed
  deriving DecidableEq

namespace FileTree

def nameLimit : Nat := 255

/-- The bytes that a path can have, with one more for its end. -/
def pathLimit : Nat := 4096

def join (names : List String) : String :=
  "/".intercalate names

def usualDirectories : List String :=
  ["bin", "boot", "dev", "dev/fd", "dev/shm", "etc", "home", "lib", "media", "mnt", "opt", "proc",
   "proc/self", "root", "run", "sbin", "srv", "sys", "tmp", "usr", "usr/bin", "usr/lib",
   "usr/local", "usr/local/bin", "usr/share", "var", "var/lib", "var/log", "var/tmp"]

def usualDevices : List String :=
  ["dev/null", "dev/stdin", "dev/fd/0"]

def around (workingDirectory : List String) : FileTree where
  workingDirectory := workingDirectory
  nodes :=
    let directories := usualDirectories.foldl (fun m key => KeyMap.insert key .directory m)
      ([] : KeyMap String FileNode)
    usualDevices.foldl (fun m key => KeyMap.insert key .device m) directories

/-- The root and what is on the way to the working directory are directories. -/
def node? (t : FileTree) (names : List String) : Option FileNode :=
  if names.isPrefixOf t.workingDirectory then some .directory else t.nodes.get? (join names)

def put (t : FileTree) (names : List String) (node : FileNode) : FileTree :=
  { t with nodes := t.nodes.insert (join names) node }

def remove (t : FileTree) (names : List String) : FileTree :=
  match t.node? names with
  | none => t
  | some .directory => t
  | some _ => { t with nodes := t.nodes.erase (join names) }

def isDirectoryAt (t : FileTree) (names : List String) : Bool :=
  match t.node? names with
  | some .directory => true
  | _ => false

def step (t : FileTree) (names : List String) (piece : String) :
    Except PathError (List String) :=
  match t.node? names with
  | none => .error .absent
  | some .directory =>
      if Path.isIdle piece then .ok names
      else if piece = ".." then .ok names.dropLast
      else if nameLimit < piece.utf8ByteSize then .error .tooLong
      else .ok (names ++ [piece])
  | some _ => .error .notDirectory

def walk (t : FileTree) (names : List String) : List String → Except PathError (List String)
  | [] => .ok names
  | piece :: rest =>
      match t.step names piece with
      | .error e => .error e
      | .ok names => walk t names rest

def namesOf (t : FileTree) (path : String) : List String :=
  let start := if Path.isAbsolute path then [] else t.workingDirectory
  (Path.pieces path).foldl (fun names piece =>
    if Path.isIdle piece then names
    else if piece = ".." then names.dropLast
    else names ++ [piece]) start

/-- The names of the file that an address leads to; a database in memory has none. -/
def addressed? (t : FileTree) (address : String) : Option (List String) :=
  match Address.read? address with
  | none => none
  | some a => if a.isTransient then none else some (t.namesOf a.path)

def start (t : FileTree) (path : String) : Except PathError (List String × List String) :=
  if path.contains '\x00' then .error .malformed
  else if path.isEmpty then .error .absent
  else if pathLimit ≤ path.utf8ByteSize then .error .tooLong
  else .ok (if Path.isAbsolute path then [] else t.workingDirectory, Path.pieces path)

def locate (t : FileTree) (path : String) : Except PathError (List String) :=
  match t.start path with
  | .error e => .error e
  | .ok (names, pieces) =>
      match t.walk names pieces with
      | .error e => .error e
      | .ok names => if (t.node? names).isSome then .ok names else .error .absent

def isDirectory (t : FileTree) (path : String) : Bool :=
  match t.locate path with
  | .ok names => t.isDirectoryAt names
  | .error _ => false

def makeDirectory (t : FileTree) (path : String) : Except PathError FileTree :=
  match t.start path with
  | .error e => .error e
  | .ok (names, pieces) =>
      let above := (pieces.reverse.dropWhile String.isEmpty).reverse
      match t.walk names above.dropLast, above.getLast? with
      | .error e, _ => .error e
      | .ok _, none => .error .present
      | .ok names, some last =>
          match t.step names last with
          | .error e => .error e
          | .ok names =>
              if (t.node? names).isSome then .error .present else .ok (t.put names .directory)

/-- Makes the first of the directories, which are each above the one before, and those above it as
far as they are missing. What was made before a failure stays. -/
def makeAll (t : FileTree) : List String → FileTree × Bool
  | [] => (t, true)
  | path :: above =>
      match t.makeDirectory path with
      | .ok t => (t, true)
      | .error .absent =>
          match t.makeAll above with
          | (t, false) => (t, false)
          | (t, true) =>
              match t.makeDirectory path with
              | .ok t => (t, true)
              | .error _ => (t, t.isDirectory path)
      | .error _ => (t, t.isDirectory path)

def makeAbove (t : FileTree) (path : String) : FileTree × Bool :=
  t.makeAll (Path.ancestors (Path.pieces path).length path)

def addFile (t : FileTree) (path : String) (bytes : ByteArray) : FileTree :=
  let t := (t.makeAbove path).1
  match t.start path with
  | .error _ => t
  | .ok (names, pieces) =>
      match t.walk names pieces with
      | .error _ => t
      | .ok names => t.put names (.file bytes)

/-- What the file of a database without tables says as a text. -/
def blankText : String := "SQLite format 3"

def textOf? : FileNode → Option String
  | .directory => none
  | .device => some ""
  | .file bytes => String.fromUTF8? bytes
  | .database db _ => if db = .blank then some blankText else none

def text? (t : FileTree) (path : String) : Option String :=
  match t.locate path with
  | .error _ => none
  | .ok names => (t.node? names).bind textOf?

def databasePaths (t : FileTree) : List String :=
  t.nodes.filterMap fun (key, node) =>
    let names := key.splitOn "/"
    let below := names.drop t.workingDirectory.length
    match node with
    | .directory => none
    | _ =>
        if t.workingDirectory.isPrefixOf names && Path.hasExtension "db" (below.getLastD "") then
          some (join below)
        else none

end FileTree

end Predication
