import Predication.Text.Decimal

namespace Predication

inductive Literal where
  | text (value : String)
  | number (value : Int64)
  | truth (value : Bool)
  | absent
  deriving DecidableEq

inductive Term where
  | literal (value : Literal)
  | symbol (name : String)
  | action (descriptor : String)
  | reference (descriptor : String)
  | variable (name : String)
  deriving DecidableEq

def boolText : Bool → String
  | true => "true"
  | false => "false"

def Literal.render : Literal → String
  | .text s => "'" ++ s ++ "'"
  | .number n => Text.intText n.toInt
  | .truth b => boolText b
  | .absent => "null"

def Term.render : Term → String
  | .literal l => l.render
  | .symbol s => s
  | .action d => "<action:" ++ d ++ ">"
  | .reference d => "<ref:" ++ d ++ ">"
  | .variable v => "?" ++ v

def Term.isVariable : Term → Bool
  | .variable _ => true
  | _ => false

def Term.fits (t pattern : Term) : Bool :=
  pattern.isVariable || pattern == t

theorem Term.fits_self (t : Term) : t.fits t = true := by
  simp [Term.fits]

end Predication
