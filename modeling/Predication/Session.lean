import Predication.FileTree.Beside
import Predication.Store

namespace Predication

/-- Where the database of a session is: in memory, or in a file that says where it keeps changes.
Beside the file there can be a log in use, under a guard. -/
inductive Place where
  | memory (db : Database)
  | file (names : List String) (journal : Journal) (log : Option Guard)

structure Session where
  tree : FileTree
  place : Place

namespace Session

def database? (s : Session) : Option Database :=
  match s.place with
  | .memory db => some db
  | .file names _ _ =>
      match s.tree.node? names with
      | some (.database db _) => some db
      | _ => none

def store (s : Session) (db : Database) : Session :=
  match s.place with
  | .memory _ => { s with place := .memory db }
  | .file names journal _ => { s with tree := s.tree.put names (.database db journal) }

def run {α : Type} (s : Session) (script : Script α) : Except StoreError α × Session :=
  match s.database? with
  | none => (.error .engine, s)
  | some db =>
      let r := script db
      (r.answer, s.store (r.final db))

end Session

def Place.hold (p : Place) (t : FileTree) : FileTree :=
  match p with
  | .file names _ (some guard) => t.fillLog names guard
  | _ => t

def Place.release (p : Place) (t : FileTree) : FileTree :=
  match p with
  | .file names _ (some guard) => t.removeLog names guard
  | _ => t

def Session.close (s : Session) : FileTree :=
  s.place.release s.tree

end Predication
