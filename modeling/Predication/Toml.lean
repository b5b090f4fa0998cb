/-!
TOML documents as trees. Only texts have a value here; numbers, truth values and dates are
scalars without one. A table remembers how it came about, for that decides what may be added.
-/

namespace Predication

namespace Toml

/-- A table stands under a header of its own, or is implied by the header of a table inside it,
or is made by dotted keys, or is written in braces. -/
inductive TableKind where
  | header
  | implied
  | dotted
  | inline
  deriving DecidableEq

end Toml

inductive Toml where
  | text (value : String)
  | scalar
  | array (items : List Toml)
  | table (kind : Toml.TableKind) (entries : List (String × Toml))
  | tables (items : List (List (String × Toml)))

namespace Toml

abbrev Entries := List (String × Toml)

def Entries.get? (key : String) (es : Entries) : Option Toml :=
  (es.find? (fun e => e.1 == key)).map Prod.snd

def Entries.put (key : String) (value : Toml) : Entries → Entries
  | [] => [(key, value)]
  | (k, v) :: rest => if k = key then (k, value) :: rest else (k, v) :: Entries.put key value rest

def Entries.add? (key : String) (value : Toml) (es : Entries) : Option Entries :=
  match es.get? key with
  | some _ => none
  | none => some (es ++ [(key, value)])

def changeLast? (f : Entries → Option Entries) : List Entries → Option (List Entries)
  | [] => none
  | [t] => (f t).map ([·])
  | t :: ts => (changeLast? f ts).map (t :: ·)

/-- Adds a value under a dotted key, whose last part is `key`. The tables on the way must not
stand under a header or in braces, and the one that is to hold the value must be made by dotted
keys; `holds` says whether the table at hand may hold it. -/
def addDotted? (holds : Bool) (key : String) (value : Toml) : List String → Entries → Option Entries
  | [], es => if holds then es.add? key value else none
  | part :: parts, es =>
      match es.get? part with
      | none =>
          (addDotted? true key value parts []).map fun inner =>
            es ++ [(part, .table .dotted inner)]
      | some (.table .dotted inner) =>
          (addDotted? true key value parts inner).map fun inner =>
            es.put part (.table .dotted inner)
      | some (.table .implied inner) =>
          (addDotted? false key value parts inner).map fun inner =>
            es.put part (.table .implied inner)
      | some (.tables items) =>
          (changeLast? (addDotted? false key value parts) items).map fun items =>
            es.put part (.tables items)
      | some _ => none

/-- Changes the table under a header's path; tables that are missing on the way are implied, and
of an array of tables the last one is meant. -/
def under? (f : Entries → Option Entries) : List String → Entries → Option Entries
  | [], es => f es
  | part :: parts, es =>
      match es.get? part with
      | none => (under? f parts []).map fun inner => es ++ [(part, .table .implied inner)]
      | some (.table .inline _) => none
      | some (.table kind inner) =>
          (under? f parts inner).map fun inner => es.put part (.table kind inner)
      | some (.tables items) =>
          (changeLast? (under? f parts) items).map fun items => es.put part (.tables items)
      | some _ => none

def openTable? (key : String) (es : Entries) : Option Entries :=
  match es.get? key with
  | none => some (es ++ [(key, .table .header [])])
  | some (.table .implied inner) => some (es.put key (.table .header inner))
  | some _ => none

def openItem? (key : String) (es : Entries) : Option Entries :=
  match es.get? key with
  | none => some (es ++ [(key, .tables [[]])])
  | some (.tables items) => some (es.put key (.tables (items ++ [[]])))
  | some _ => none

end Toml

end Predication
