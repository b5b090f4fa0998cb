import Predication.Database.Image
import Predication.Session

namespace Predication

namespace FileTree

def databasePathLimit : Nat := 512

def fullLength (names : List String) : Nat :=
  names.foldl (fun size n => size + n.utf8ByteSize + 1) 0

/-- Goes on by one piece of the path of a database: two dots take the last name away, whatever it
names, and a name must not stand below a file. -/
def extend? (t : FileTree) (names : List String) (piece : String) : Option (List String) :=
  if Path.isIdle piece then some names
  else if piece = ".." then some names.dropLast
  else if databasePathLimit < fullLength names + piece.utf8ByteSize + 2 then none
  else
    match t.step names piece with
    | .ok next => some next
    | .error .absent => some (names ++ [piece])
    | .error _ => none

/-- The names of the full path of a database, which leaves room for the ending of its journal. -/
def databaseNames? (t : FileTree) (path : String) : Option (List String) := do
  let start := if Path.isAbsolute path then [] else t.workingDirectory
  let names ← (Path.pieces path).foldlM t.extend? start
  guard (!names.isEmpty)
  guard (fullLength names + journalEnding.utf8ByteSize ≤ databasePathLimit)
  return names

/-- What is found where a database should be. A spoiled file is no database, and a barred one has a
log that cannot be used. -/
inductive Finding where
  | nothing
  | noFile
  | blank
  | spoiled
  | barred
  | found (db : Database) (journal : Journal)

def findingOf (bytes : ByteArray) : Finding :=
  match Image.read? bytes with
  | some db => .found db (if Image.isLogged bytes then .log else .rollback)
  | none => .spoiled

def logFor? (t : FileTree) (names : List String) (a : Address) : Option ByteArray :=
  if a.frozen || !a.guard.admitsLog then none else t.bytes? (beside names logEnding)

/-- A file of one byte counts as empty, and an empty file as a blank database. What is in a log that
counts is in the database; with a log that cannot be used there is none. -/
def finding (t : FileTree) (names : List String) (a : Address) : Finding :=
  match t.node? names with
  | none => .nothing
  | some .directory => .noFile
  | some .device => .noFile
  | some (.database db journal) => .found db journal
  | some (.file bytes) =>
      if bytes.size ≤ 1 then .blank
      else
        match t.logFor? names a with
        | none => findingOf bytes
        | some log =>
            match Image.withLog? bytes log with
            | none => .barred
            | some bytes => findingOf bytes

abbrev Opening := Except (StoreError × FileTree) Session

def refuse (t : FileTree) : Opening :=
  .error (.engine, t)

/-- Prepares the database that is in a file. A failure leaves what was written before it. -/
def prepareFile (t : FileTree) (names : List String) (journal : Journal) (log : Option Guard) :
    Opening :=
  match Session.run ⟨t, .file names journal log⟩ Schema.prepare with
  | (.error e, s) => .error (e, s.tree)
  | (.ok (), s) => .ok { s with tree := s.place.hold s.tree }

/-- Opens a database to write it, with a log. To begin one takes a journal, and the file says from
then on that it has a log; one that is there already is taken without a word. -/
def openLogged (t : FileTree) (names : List String) (guard : Guard) (db : Database)
    (journal : Journal) : Opening :=
  let begins := journal == .rollback && !t.isFilled names logEnding
  if t.isBlocked names logEnding then t.refuse
  else if begins && !t.admitsJournal names then t.refuse
  else
    let journal := if begins then .log else journal
    let t := if begins then t.removeBeside names journalEnding else t
    let t := t.put names (.database db journal)
    if t.hidesIndex names guard then (t.makeLog names).refuse
    else (t.removeLog names guard).prepareFile names journal (some guard)

def openUnlogged (t : FileTree) (names : List String) (db : Database) (journal : Journal) :
    Opening :=
  if journal = .log ∨ t.isBlocked names logEnding ∨ t.isFilled names logEnding then t.refuse
  else if !t.admitsJournal names then t.refuse
  else
    ((t.removeBeside names journalEnding).put names (.database db .rollback)).prepareFile names
      .rollback none

def openWriting (t : FileTree) (names : List String) (guard : Guard) (db : Database)
    (journal : Journal) : Opening :=
  if guard.admitsLog then t.openLogged names guard db journal
  else t.openUnlogged names db journal

/-- Opening a store writes, so it fails in a database that is only read. The version is looked at
before that if nothing else has to be written. A log can be read only where there can be one, or
where it cannot change. -/
def openReading (t : FileTree) (names : List String) (a : Address) (db : Database)
    (journal : Journal) : Opening :=
  let usesLog := !a.frozen && (journal == .log || t.isFilled names logEnding)
  if usesLog && !a.guard.admitsLog then t.refuse
  else if usesLog && t.hidesIndex names a.guard then (t.leaveLog names a.guard).refuse
  else
    let t := if usesLog then t.leaveLog names a.guard else t
    match (Schema.prepare db).answer with
    | .error (.invalid reason) =>
        if db.isComplete && (!a.guard.admitsLog || journal == .log) then
          .error (.invalid reason, t)
        else t.refuse
    | _ => t.refuse

def openMemory (t : FileTree) : Session :=
  (Session.run ⟨t, .memory .blank⟩ Schema.prepare).2

def openBlank (t : FileTree) (names : List String) (a : Address) : Opening :=
  if a.access = .reading then
    let t := if a.guard = .nothing then t.removeFilled names journalEnding else t
    (t.removeFilled names logEnding).refuse
  else
    let t := if a.guard.leavesJournal then t else t.removeFilled names journalEnding
    (t.removeFilled names logEnding).openWriting names a.guard .blank .rollback

/-- Whether a file says that it has a log, also if the rest of it is spoiled. -/
def saysLogged (t : FileTree) (names : List String) : Bool :=
  (t.bytes? names).any fun bytes => Image.hasMagic bytes && Image.isLogged bytes

def openSpoiled (t : FileTree) (names : List String) (a : Address) : Opening :=
  let usesLog := a.guard.admitsLog && !t.isBlocked names logEnding &&
    (t.isFilled names logEnding || t.saysLogged names)
  if !usesLog then t.refuse
  else if a.access = .reading then (t.leaveLog names a.guard).refuse
  else if t.hidesIndex names a.guard then (t.makeLog names).refuse
  else (t.mergeLog names a.guard).refuse

def openSettled (t : FileTree) (names : List String) (a : Address) : Opening :=
  match t.finding names a with
  | .nothing => t.refuse
  | .noFile => t.refuse
  | .barred => t.refuse
  | .blank => t.openBlank names a
  | .spoiled => t.openSpoiled names a
  | .found db journal =>
      if a.access = .reading then t.openReading names a db journal
      else t.openWriting names a.guard db journal

def openGuarded (t : FileTree) (names : List String) (a : Address) : Opening :=
  if t.isMarked names a.guard then t.refuse
  else
    let a := t.heedMarker names a
    match t.finding names a with
    | .nothing => t.refuse
    | .noFile => t.refuse
    | .blank => t.openBlank names a
    | _ =>
        if t.deniesJournal names a then t.refuse
        else if a.access = .reading then t.openSettled names a
        else (t.recover names a.guard).openSettled names a

def openFound (t : FileTree) (a : Address) (names : List String) : Opening :=
  match a.frozen, t.finding names a with
  | true, .found db journal => t.openReading names a db journal
  | true, .nothing =>
      (if a.access = .making then t.put names (.file .empty) else t).refuse
  | true, _ => t.refuse
  | false, .nothing =>
      if a.access = .making then (t.put names (.file .empty)).openGuarded names a
      else t.refuse
  | false, _ => t.openGuarded names a

def openAddress (t : FileTree) (a : Address) : Opening :=
  if a.isTransient then
    if a.access = .reading then t.refuse else .ok t.openMemory
  else
    match t.databaseNames? a.path with
    | none => t.refuse
    | some names =>
        let modelIsThere := a.model.all fun path => (t.locate path).isOk
        if modelIsThere && t.isDirectoryAt names.dropLast then t.openFound a names else t.refuse

/-- Opens the store at an address, which prepares its database. The directories above it are made
first, as if the address were a path. -/
def openStore (t : FileTree) (address : String) : Opening :=
  match t.makeAbove address with
  | (t, false) => .error (.file, t)
  | (t, true) =>
      if address.contains '\x00' then t.refuse
      else
        match Address.read? address with
        | none => t.refuse
        | some a => t.openAddress a

end FileTree

namespace Session

/-- Opens another store, or a new one in memory. The session with it takes the place of the present
one, which stays if the opening fails. -/
def switch (s : Session) (address : Option String) : Except StoreError Unit × Session :=
  let opening : FileTree.Opening := match address with
    | none => .ok s.tree.openMemory
    | some a => s.tree.openStore a
  match opening with
  | .error (e, t) => (.error e, { s with tree := s.place.hold t })
  | .ok next => (.ok (), { next with tree := next.place.hold (s.place.release next.tree) })

end Session

end Predication
