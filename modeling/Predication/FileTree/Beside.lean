import Predication.Database.Address
import Predication.Database.Image
import Predication.Database.Image.Journal
import Predication.FileTree

/-!
What stands beside the file of a database, under its name with an ending: the journal of changes
that are not finished, the log of changes that are not in the file yet, the index to the log, and
the marker of a database that is in use.
-/

namespace Predication.FileTree

def beside (names : List String) (ending : String) : List String :=
  names.dropLast ++ [names.getLastD "" ++ ending]

def journalEnding : String := "-journal"

def logEnding : String := "-wal"

def logIndexEnding : String := "-shm"

def markerEnding : String := ".lock"

/-- What stands for the content of a log and of its index, which is no database and no text. -/
def logContent : ByteArray :=
  ByteArray.mk #[0, 0xff]

def isBlocked (t : FileTree) (names : List String) (ending : String) : Bool :=
  t.isDirectoryAt (beside names ending)

def isFilled (t : FileTree) (names : List String) (ending : String) : Bool :=
  match t.node? (beside names ending) with
  | some (.file bytes) => !bytes.isEmpty
  | some (.database _ _) => true
  | _ => false

/-- Whether a journal says that changes to a database were not finished. The first byte of a journal
that is done with is zero. -/
def isUnfinished (t : FileTree) (names : List String) : Bool :=
  match t.node? (beside names journalEnding) with
  | some (.file bytes) => bytes.data[0]?.any (· != 0)
  | some (.database _ _) => true
  | _ => false

def isMarked (t : FileTree) (names : List String) (guard : Guard) : Bool :=
  guard == .marker && (t.node? (beside names markerEnding)).isSome

/-- A bystander who sees no marker has nothing to heed. -/
def heedMarker (t : FileTree) (names : List String) (a : Address) : Address :=
  if a.guard = .bystander ∧ (t.node? (beside names markerEnding)).isNone then
    { a with guard := .nothing }
  else a

def hidesIndex (t : FileTree) (names : List String) (guard : Guard) : Bool :=
  guard == .observer || (guard == .locks && t.isBlocked names logIndexEnding)

/-- Whether what is in the place of a journal stops the opening: it cannot be looked into, or it has
changes to take back and nothing may be written. -/
def deniesJournal (t : FileTree) (names : List String) (a : Address) : Bool :=
  !a.guard.leavesJournal &&
    (t.isBlocked names journalEnding || (a.access == .reading && t.isUnfinished names))

def removeBeside (t : FileTree) (names : List String) (ending : String) : FileTree :=
  t.remove (beside names ending)

def removeFilled (t : FileTree) (names : List String) (ending : String) : FileTree :=
  if t.isFilled names ending then t.removeBeside names ending else t

def putBeside (t : FileTree) (names : List String) (ending : String) (bytes : ByteArray) :
    FileTree :=
  if t.isBlocked names ending then t else t.put (beside names ending) (.file bytes)

def makeLog (t : FileTree) (names : List String) : FileTree :=
  if (t.node? (beside names logEnding)).isSome then t else t.putBeside names logEnding .empty

def leaveLog (t : FileTree) (names : List String) (guard : Guard) : FileTree :=
  if t.isBlocked names logEnding then t
  else
    let t := t.makeLog names
    if guard = .observer then t else t.putBeside names logIndexEnding logContent

def fillLog (t : FileTree) (names : List String) (guard : Guard) : FileTree :=
  let t := t.putBeside names logEnding logContent
  if guard = .locks then t.putBeside names logIndexEnding logContent else t

def removeLog (t : FileTree) (names : List String) (guard : Guard) : FileTree :=
  let t := t.removeBeside names logEnding
  if guard = .locks then t.removeBeside names logIndexEnding else t

def bytes? (t : FileTree) (names : List String) : Option ByteArray :=
  match t.node? names with
  | some (.file bytes) => some bytes
  | _ => none

def usualPageSize : Nat := 4096

/-- Brings the log beside a file into the file and takes it away. A log with pages of another size
stays. -/
def mergeLog (t : FileTree) (names : List String) (guard : Guard) : FileTree :=
  match t.bytes? names, t.bytes? (beside names logEnding) with
  | some bytes, some log =>
      match Image.logContent log with
      | .unusable => t
      | .frames pageSize frames =>
          if frames.isEmpty then t.removeLog names guard
          else if pageSize = (Image.pageSize? bytes).getD usualPageSize then
            (t.put names (.file (Image.withFrames bytes pageSize frames))).removeLog names guard
          else t.leaveLog names guard
  | _, _ => t.removeLog names guard

def playBack (t : FileTree) (names : List String) : FileTree :=
  match t.bytes? names, t.bytes? (beside names journalEnding) with
  | some bytes, some journal =>
      t.put names (.file (Image.played bytes journal ((Image.pageSize? bytes).getD usualPageSize)))
  | _, _ => t

def recover (t : FileTree) (names : List String) (guard : Guard) : FileTree :=
  if !guard.leavesJournal && t.isUnfinished names then
    (t.playBack names).removeBeside names journalEnding
  else t

def admitsJournal (t : FileTree) (names : List String) : Bool :=
  decide ((names.getLastD "" ++ journalEnding).utf8ByteSize ≤ nameLimit) &&
    !t.isBlocked names journalEnding

end Predication.FileTree
