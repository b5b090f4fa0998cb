import Predication.Term

namespace Predication

structure Fact where
  subject : Term
  predicate : Term
  object : Term
  deriving DecidableEq

namespace Fact

def render (f : Fact) : String :=
  "(" ++ f.subject.render ++ " " ++ f.predicate.render ++ " " ++ f.object.render ++ ")"

/-- A pattern's variables stand for any terms, also for different ones where one name occurs
twice; elsewhere the terms have to be equal. -/
def fits (f pattern : Fact) : Bool :=
  f.subject.fits pattern.subject && f.predicate.fits pattern.predicate &&
    f.object.fits pattern.object

theorem fits_self (f : Fact) : f.fits f = true := by
  simp [fits, Term.fits_self]

end Fact

end Predication
