import Predication.Tag

namespace Predication

inductive CoreVerb where
  | has
  | act
  | is
  deriving DecidableEq

def CoreVerb.all : List CoreVerb := [.has, .act, .is]

instance : Vocabulary CoreVerb where
  read?
    | "HAS" => some .has
    | "DO" => some .act
    | "IS" => some .is
    | _ => none
  name
    | .has => "HAS"
    | .act => "DO"
    | .is => "IS"
  strangerNote := "Unknown Core Verb"

inductive ModalVerb where
  | could
  | can
  | beAbleTo
  | couldHave
  | permission
  | allowedTo
  | might
  | may
  | hadTo
  | must
  | willHaveTo
  | shouldHave
  | should
  | needTo
  | need
  | willNeed
  deriving DecidableEq

namespace ModalVerb

def all : List ModalVerb :=
  [.could, .can, .beAbleTo, .couldHave, .permission, .allowedTo, .might, .may, .hadTo, .must,
    .willHaveTo, .shouldHave, .should, .needTo, .need, .willNeed]

def name : ModalVerb → String
  | .could => "COULD"
  | .can => "CAN"
  | .beAbleTo => "BE_ABLE_TO"
  | .couldHave => "COULD_HAVE"
  | .permission => "PERMISSION"
  | .allowedTo => "ALLOWED_TO"
  | .might => "MIGHT"
  | .may => "MAY"
  | .hadTo => "HAD_TO"
  | .must => "MUST"
  | .willHaveTo => "WILL_HAVE_TO"
  | .shouldHave => "SHOULD_HAVE"
  | .should => "SHOULD"
  | .needTo => "NEED_TO"
  | .need => "NEED"
  | .willNeed => "WILL_NEED"

end ModalVerb

instance : Vocabulary ModalVerb where
  read? raw := ModalVerb.all.find? fun v => v.name == raw
  name := ModalVerb.name
  strangerNote := "Unknown Modal Verb"

inductive Modality where
  | ability
  | permission
  | possibility
  | necessity
  | suggestion
  | requirement
  deriving DecidableEq

/-- The tense `presentFuture` is that of a form that covers both. -/
inductive Tense where
  | past
  | present
  | future
  | presentFuture
  deriving DecidableEq

def ModalVerb.modality : ModalVerb → Modality
  | .could | .can | .beAbleTo => .ability
  | .couldHave | .permission | .allowedTo => .permission
  | .might | .may => .possibility
  | .hadTo | .must | .willHaveTo => .necessity
  | .shouldHave | .should => .suggestion
  | .needTo | .need | .willNeed => .requirement

def ModalVerb.tense : ModalVerb → Tense
  | .could | .couldHave | .might | .hadTo | .shouldHave | .needTo => .past
  | .can | .permission | .must => .present
  | .beAbleTo | .allowedTo | .willHaveTo | .willNeed => .future
  | .may | .should | .need => .presentFuture

def Modality.name : Modality → String
  | .ability => "Ability"
  | .permission => "Permission"
  | .possibility => "Possibility"
  | .necessity => "Necessity"
  | .suggestion => "Suggestion"
  | .requirement => "Requirement"

def Tense.name : Tense → String
  | .past => "Past"
  | .present => "Present"
  | .future => "Future"
  | .presentFuture => "PresentFuture"

end Predication
