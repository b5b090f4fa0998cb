import Predication.Database

/-!
Scripts: sequences of statements and transactions against a database. A run shows its answer and
every state that it commits on its way, for these are the states that a later opening can find.
-/

namespace Predication

/-- The answer of a run, and the states that it committed, oldest first. -/
structure Run (α : Type) where
  answer : Except StoreError α
  commits : List Database

def Run.final {α : Type} (r : Run α) (db : Database) : Database :=
  r.commits.getLastD db

def Script (α : Type) : Type := Database → Run α

namespace Script

variable {α β : Type}

def done (a : α) : Script α :=
  fun _ => ⟨.ok a, []⟩

def fail (e : StoreError) : Script α :=
  fun _ => ⟨.error e, []⟩

def query (f : Database → Except StoreError α) : Script α :=
  fun db => ⟨f db, []⟩

/-- One statement or transaction: it takes effect as a whole or not at all. -/
def commit (f : Database → Except StoreError (α × Database)) : Script α :=
  fun db =>
    match f db with
    | .ok (a, db) => ⟨.ok a, [db]⟩
    | .error e => ⟨.error e, []⟩

def write (f : Database → Except StoreError Database) : Script Unit :=
  commit fun db => (f db).map fun db => ((), db)

def keeping (kept : Database → Option Database) (s : Script α) : Script α :=
  fun db =>
    let r := s db
    match r.answer with
    | .ok _ => r
    | .error e => ⟨.error e, r.commits ++ (kept db).toList⟩

/-- The second script starts in the state that the first one leaves, unless that one fails. -/
def andThen (s : Script α) (f : α → Script β) : Script β :=
  fun db =>
    let first := s db
    match first.answer with
    | .error e => ⟨.error e, first.commits⟩
    | .ok a =>
        let second := f a (first.final db)
        ⟨second.answer, first.commits ++ second.commits⟩

instance : Monad Script where
  pure := done
  bind := andThen

theorem final_query (f : Database → Except StoreError α) (db : Database) :
    (query f db).final db = db := rfl

end Script

end Predication
