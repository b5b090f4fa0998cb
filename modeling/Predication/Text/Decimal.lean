namespace Predication.Text

def isDigit (c : Char) : Bool :=
  '0' ≤ c && c ≤ '9'

def digitValue (c : Char) : Nat :=
  c.toNat - '0'.toNat

def digitsValue (ds : List Char) : Nat :=
  ds.foldl (fun n d => 10 * n + digitValue d) 0

def natText (n : Nat) : String :=
  String.ofList (Nat.toDigits 10 n)

def intText : Int → String
  | .ofNat n => natText n
  | .negSucc n => "-" ++ natText (n + 1)

def readInt? (cs : List Char) : Option Int :=
  match cs with
  | '+' :: ds => if ds.isEmpty || !ds.all isDigit then none else some (digitsValue ds)
  | '-' :: ds => if ds.isEmpty || !ds.all isDigit then none else some (-(digitsValue ds : Int))
  | ds => if ds.isEmpty || !ds.all isDigit then none else some (digitsValue ds)

def readInt64? (cs : List Char) : Option Int :=
  (readInt? cs).filter (fun n => -0x8000000000000000 ≤ n && n < 0x8000000000000000)

end Predication.Text
