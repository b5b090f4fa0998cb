import Predication.Json.Reader
import Predication.Text.Decimal

/-!
Addresses of databases. An address is the path of a file, or it starts with `file:` and is a URI:
a path with escapes for bytes, then parameters behind a question mark, then a fragment that says
nothing.
-/

namespace Predication

/-- What the database at an address is opened for: to be read, to be written if it is there, or to
be made if it is not. -/
inductive Access where
  | reading
  | writing
  | making
  deriving DecidableEq

def Access.admits : Access → Access → Bool
  | .making, _ => true
  | .writing, a => a != .making
  | .reading, a => a == .reading

/-- How those who use a database file keep out of each other's way: by locks, where the index to a
log is in a file for all, which an observer leaves alone, or in memory for the one owner; by a
marker beside the file, which a bystander sees but does not put there; or by nothing. -/
inductive Guard where
  | locks
  | observer
  | ownership
  | marker
  | bystander
  | nothing
  deriving DecidableEq

def Guard.admitsLog : Guard → Bool
  | .locks => true
  | .observer => true
  | .ownership => true
  | .marker => false
  | .bystander => false
  | .nothing => false

/-- Whether the journal of a database is left alone, as if it were in use. A marker looks like that,
also to the one who put it there. -/
def Guard.leavesJournal : Guard → Bool
  | .marker => true
  | .bystander => true
  | _ => false

/-- The path of a database file and how to use it. A database in memory is forgotten at the end; a
frozen one is read as if nobody could write it. The model is a file that must be there, since a new
database takes its permissions. -/
structure Address where
  path : String
  access : Access := .making
  inMemory : Bool := false
  frozen : Bool := false
  guard : Guard := .locks
  model : Option String := none
  deriving DecidableEq

namespace Address

abbrev Bytes := List UInt8

def byte (c : Char) : UInt8 :=
  UInt8.ofNat c.toNat

def hexValue? (b : UInt8) : Option Nat :=
  if byte '0' ≤ b ∧ b ≤ byte '9' then some (b - byte '0').toNat
  else if byte 'a' ≤ b ∧ b ≤ byte 'f' then some ((b - byte 'a').toNat + 10)
  else if byte 'A' ≤ b ∧ b ≤ byte 'F' then some ((b - byte 'A').toNat + 10)
  else none

def escape? : Bytes → Option (UInt8 × Bytes)
  | p :: h :: l :: rest =>
      if p = byte '%' then
        match hexValue? h, hexValue? l with
        | some h, some l => some (UInt8.ofNat (16 * h + l), rest)
        | _, _ => none
      else none
  | _ => none

/-- Bytes with their escapes resolved. An escape for the byte zero ends the text. -/
def unescape : Nat → Bytes → Bytes
  | 0, _ => []
  | _, [] => []
  | fuel + 1, b :: rest =>
      match escape? (b :: rest) with
      | none => b :: unescape fuel rest
      | some (c, rest) => if c = 0 then [] else c :: unescape fuel rest

def text (bs : Bytes) : String :=
  let bytes : ByteArray := ⟨bs.toArray⟩
  match String.fromUTF8? bytes with
  | some s => s
  | none => String.ofList (bs.map fun b => Char.ofNat b.toNat)

def plain (bs : Bytes) : String :=
  text (unescape bs.length bs)

def splitOn (separator : UInt8) : Bytes → List Bytes
  | [] => [[]]
  | b :: rest =>
      if b = separator then [] :: splitOn separator rest
      else
        match splitOn separator rest with
        | [] => [[b]]
        | p :: ps => (b :: p) :: ps

/-- A parameter: a name, and a value after an equals sign. One without a name counts for nothing. -/
def parameter? (bs : Bytes) : Option (String × String) :=
  let name := bs.takeWhile (· != byte '=')
  let value := (bs.dropWhile (· != byte '=')).drop 1
  let name := plain name
  if name.isEmpty then none else some (name, plain value)

def isHex (c : Char) : Bool :=
  (Json.hexValue? c).isSome

/-- The number at the front of a text, in decimal or, behind `0x`, in hexadecimal digits; it counts
as zero if it does not fit into 31 bits. -/
def leadingNumber (cs : List Char) : Nat :=
  let small (n : Nat) : Nat := if n < 0x80000000 then n else 0
  let decimal (ds : List Char) : Nat := small (Text.digitsValue (ds.takeWhile Text.isDigit))
  match cs with
  | '0' :: x :: rest =>
      if (x = 'x' ∨ x = 'X') ∧ rest.head?.any isHex then
        small ((rest.takeWhile isHex).foldl (fun n c => 16 * n + (Json.hexValue? c).getD 0) 0)
      else decimal cs
  | cs => decimal cs

/-- Whether a value switches something on: a number whose last byte is not zero, or a word. -/
def isOn (value : String) : Bool :=
  match value.toList with
  | c :: cs =>
      if Text.isDigit c then leadingNumber (c :: cs) % 256 != 0
      else value.toLower == "on" || value.toLower == "yes" || value.toLower == "true"
  | [] => false

def value? (name : String) (parameters : List (String × String)) : Option String :=
  (parameters.find? (fun p => p.1 == name)).map Prod.snd

def isSet (name : String) (parameters : List (String × String)) : Bool :=
  (value? name parameters).any isOn

def restrict? (a : Address) (access : Access) : Option Address :=
  if a.inMemory || a.access.admits access then
    some { a with access := access, inMemory := false }
  else none

def heed? (a : Address) : String × String → Option Address
  | ("mode", "ro") => a.restrict? .reading
  | ("mode", "rw") => a.restrict? .writing
  | ("mode", "rwc") => a.restrict? .making
  | ("mode", "memory") => some { a with access := .making, inMemory := true }
  | ("mode", _) => none
  | ("cache", value) => if value = "shared" ∨ value = "private" then some a else none
  | _ => some a

def isTransient (a : Address) : Bool :=
  a.inMemory || a.path.isEmpty || a.path == ":memory:"

def guarded (a : Address) (g : Guard) : Address :=
  { a with guard := if a.guard = .nothing then .nothing else g }

def observing (a : Address) (parameters : List (String × String)) : Address :=
  if isSet "readonly_shm" parameters then a.guarded .observer else a

/-- Takes the way to reach the file into account, the last one that is given. What is reached in
memory alone cannot be frozen. -/
def reach? (a : Address) (parameters : List (String × String)) : Option Address :=
  match parameters.reverse.find? (fun p => p.1 == "vfs") with
  | none => some (a.observing parameters)
  | some (_, "unix") => some (a.observing parameters)
  | some (_, "unix-excl") => some (a.guarded .ownership)
  | some (_, "unix-none") => some (a.guarded .nothing)
  | some (_, "unix-dotfile") =>
      some { a with guard := if a.guard = .nothing then .bystander else .marker }
  | some (_, "memdb") =>
      if a.frozen && !a.isTransient then none else some { a with inMemory := true }
  | some _ => none

/-- The part of a URI after its authority, which must be empty or this machine. -/
def withoutAuthority? (bs : Bytes) : Option Bytes :=
  match bs with
  | a :: b :: rest =>
      if a = byte '/' ∧ b = byte '/' then
        let authority := text (rest.takeWhile (· != byte '/'))
        if authority = "" ∨ authority = "localhost" then
          some (rest.dropWhile (· != byte '/'))
        else none
      else some bs
  | _ => some bs

def ofUri? (uri : String) : Option Address := do
  let bs ← withoutAuthority? (uri.toUTF8.toList.drop "file:".utf8ByteSize)
  let bs := bs.takeWhile (· != byte '#')
  let path := bs.takeWhile (· != byte '?')
  let parameters :=
    (splitOn (byte '&') ((bs.dropWhile (· != byte '?')).drop 1)).filterMap parameter?
  let start : Address := {
    path := plain path
    frozen := isSet "immutable" parameters
    guard :=
      if isSet "nolock" parameters || isSet "immutable" parameters then .nothing else .locks
    model := value? "modeof" parameters }
  (← parameters.foldlM heed? start).reach? parameters

def read? (address : String) : Option Address :=
  if address.startsWith "file:" then ofUri? address else some { path := address }

end Address

end Predication
