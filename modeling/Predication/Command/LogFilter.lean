import Predication.Command.LogFilter.Pattern
import Predication.Text.Alphanumeric
import Predication.Text.Blank
import Predication.Text.Decimal

/-!
Log filters: directives with commas between them. A directive sets the level of the log lines
whose target starts with its own, or of those among them that have a field of its name; the one
that says most about a line decides.

A directive is read without the blanks around it, yet its parts are cut from the text with the
blanks, at the positions found without them. So a blank in front shifts every part, a blank behind
belongs to the last part, and a position can fall inside a character.
-/

namespace Predication.LogFilter

def level? (s : String) : Option Bool :=
  let digits := match s.toList with
    | '+' :: ds => ds
    | ds => ds
  if !digits.isEmpty && digits.all Text.isDigit then
    let n := Text.digitsValue digits
    if n ≤ 5 then some (decide (2 ≤ n)) else none
  else
    let name := s.toLower
    if name = "off" ∨ name = "error" then some false
    else if name = "warn" ∨ name = "info" ∨ name = "debug" ∨ name = "trace" then some true
    else none

/-- A directive without a target is for every target, and one without a field for every line. -/
structure Directive where
  target : Option String
  field : Option String
  warnings : Bool

/-- Why a text gives no directive: it is ignored, or a cut inside a character ends the program. -/
inductive Refusal where
  | ignored
  | aborted
  deriving DecidableEq

abbrev Reading (α : Type) := Except Refusal α

/-- The text between two byte positions. Both have to fall between characters, also when nothing is
between them. -/
def cut (text : String) (start stop : Nat) : Reading String :=
  let bytes := text.toUTF8
  match String.fromUTF8? (bytes.extract 0 start), String.fromUTF8? (bytes.extract start stop) with
  | some _, some part => .ok part
  | _, _ => .error .aborted

def cutFrom (text : String) (start : Nat) : Reading String :=
  cut text start text.utf8ByteSize

def byteSize (cs : List Char) : Nat :=
  cs.foldl (fun size c => size + c.utf8Size) 0

def readLevel (text : String) (start : Nat) : Reading Bool := do
  let name ← cutFrom text start
  if name.isEmpty then return true
  match level? name with
  | some warnings => return warnings
  | none => throw .ignored

def readTail (text : String) (start : Nat) : List Char → Reading Bool
  | [] => .ok true
  | '=' :: _ => readLevel text (start + 1)
  | _ => .error .ignored

def isField (text : String) : Bool :=
  match text.splitOn "=" with
  | _ :: value :: _ => isFieldValue value
  | _ => !text.isEmpty

/-- A field and what follows it. A field with a value looks at spans, and there are none here. -/
def readField (text : String) (target : Option String) (start : Nat) (cs : List Char) :
    Reading Directive := do
  let (inside, rest) := cs.span (· != '\x7d')
  match rest with
  | [] => throw .ignored
  | _ :: rest =>
      let stop := start + byteSize inside
      let name ← cut text start stop
      if !isField name then throw .ignored
      match rest with
      | ']' :: tail =>
          let warnings ← readTail text (stop + 2) tail
          if name.contains '=' then throw .ignored
          return ⟨target, some name, warnings⟩
      | _ => throw .ignored

/-- What stands in brackets: the name of a span, which no line here has, or a field in braces. -/
def readSpan (text : String) (target : Option String) (start : Nat) (cs : List Char) :
    Reading Directive := do
  let (name, rest) := cs.span fun c => c != ']' && c != '\x7b'
  match rest with
  | '\x7b' :: rest =>
      let stop := start + byteSize name
      let span ← cut text start stop
      let directive ← readField text target (stop + 1) rest
      if span.isEmpty then return directive else throw .ignored
  | ']' :: tail =>
      let stop := start + byteSize name
      let _ ← cut text start stop
      let _ ← readTail text (stop + 1) tail
      throw .ignored
  | _ => throw .ignored

def startsTarget (c : Char) : Bool :=
  c = '-' || c = ':' || c = '_' || Text.isAlphanumeric c

def trimmed (text : String) : List Char :=
  ((text.toList.dropWhile Text.isBlank).reverse.dropWhile Text.isBlank).reverse

def Directive.read (text : String) : Reading Directive := do
  match trimmed text with
  | [] => throw .ignored
  | '[' :: rest => readSpan text none 1 rest
  | c :: cs =>
      if !startsTarget c then throw .ignored
      let (name, rest) := (c :: cs).span fun c => c != '=' && c != '['
      let stop := byteSize name
      match rest with
      | '=' :: _ => return ⟨some (← cut text 0 stop), none, ← readLevel text (stop + 1)⟩
      | '[' :: rest => readSpan text (some (← cut text 0 stop)) (stop + 1) rest
      | _ =>
          match level? text with
          | some warnings => return ⟨none, none, warnings⟩
          | none => return ⟨some text, none, true⟩

def readAll : List String → Option (List Directive)
  | [] => some []
  | text :: rest =>
      match Directive.read text with
      | .ok d => (readAll rest).map (d :: ·)
      | .error .ignored => readAll rest
      | .error .aborted => none

def Directive.appliesTo (d : Directive) (target : String) (fields : List String) : Bool :=
  (d.target.all fun t => target.startsWith t) && d.field.all fields.contains

def Directive.weight (d : Directive) : Nat :=
  2 * (d.target.elim 0 fun t => t.length + 1) + (if d.field.isSome then 1 else 0)

/-- The directive that decides for a line: the weightiest one that applies, the last of equals. -/
def deciding? (target : String) (fields : List String) (ds : List Directive) : Option Directive :=
  (ds.filter fun d => d.appliesTo target fields).foldl
    (fun best d =>
      match best with
      | none => some d
      | some b => if b.weight ≤ d.weight then some d else some b) none

/-- Whether warnings of a target with the given fields pass a filter, to which a level for every
target is added that lets warnings through. Without an answer the filter ends the program. -/
def passesWarnings? (filter target : String) (fields : List String) : Option Bool :=
  (readAll ((filter.splitOn ",").filter fun text => !text.isEmpty)).map fun ds =>
    (deciding? target fields (ds ++ [⟨none, none, true⟩])).any fun d => d.warnings

end Predication.LogFilter
