import Predication.Json.Printer
import Predication.Json.Reader
import Predication.Statement.Wire

namespace Predication

open Json (quoted arrayOf memberOf objectOf)

def WireVerb.text : WireVerb → List Char
  | .branch v => objectOf [memberOf "branch" (quoted v)]
  | .custom n => objectOf [memberOf "custom" (quoted n)]

def Payload.text : Payload → List Char
  | .scalar s => quoted s
  | .list items => arrayOf (items.map quoted)

namespace WireStatement

/-- The members in order; a main verb that is unbound is left out. -/
def members (w : WireStatement) : List (List Char) :=
  [memberOf "scope" (quoted w.scope),
    memberOf "subject" (Text.natText w.subject.number.toNat).toList,
    memberOf "modalVerb" (quoted w.modalVerb)] ++
  (match w.mainVerb with
    | none => []
    | some v => [memberOf "mainVerb" v.text]) ++
  [memberOf "condition" (quoted w.condition), memberOf "statement" w.payload.text]

def text (w : WireStatement) : String :=
  String.ofList (objectOf w.members)

def subject? (v : Json) : Option EntityId :=
  v.number?.bind fun n => if n < 0x100000000 then some ⟨UInt32.ofNat n⟩ else none

def payload? : Json → Option Payload
  | .text value => value.map .scalar
  | .array items => (items.mapM Json.text?).map .list
  | _ => none

def verb? : Json → Option (Option WireVerb)
  | .null => some none
  | .object [(some key, value)] =>
      if key = "branch" then value.text?.map fun v => some (.branch v)
      else if key = "custom" then value.text?.map fun v => some (.custom v)
      else none
  | _ => none

def ofValues? (scope subject modalVerb mainVerb condition payload : Json) :
    Option WireStatement := do
  some {
    scope := ← scope.text?
    subject := ← subject? subject
    modalVerb := ← modalVerb.text?
    mainVerb := ← verb? mainVerb
    condition := ← condition.text?
    payload := ← payload? payload }

def optional (key : String) (default : Json) (members : List (Option String × Json)) :
    Option Json :=
  (Json.member? key members).map fun m => m.getD default

def required (key : String) (members : List (Option String × Json)) : Option Json :=
  (Json.member? key members).bind id

/-- Every key needs a value as text, also one that names none of the six members. -/
def ofMembers? (members : List (Option String × Json)) : Option WireStatement :=
  if members.all (fun m => m.1.isSome) then do
    ofValues? (← required "scope" members) (← required "subject" members)
      (← optional "modalVerb" (.text (some "")) members) (← optional "mainVerb" .null members)
      (← optional "condition" (.text (some "")) members) (← required "statement" members)
  else none

def ofJson? : Json → Option WireStatement
  | .object members => ofMembers? members
  | .array [scope, subject, modalVerb, mainVerb, condition, payload] =>
      ofValues? scope subject modalVerb mainVerb condition payload
  | _ => none

def read? (s : String) : Option WireStatement :=
  (Json.read? s).bind ofJson?

end WireStatement

end Predication
