namespace Predication.Text

def isBlank (c : Char) : Bool :=
  let n := c.toNat
  (0x09 ≤ n && n ≤ 0x0d) || n == 0x20 || n == 0x85 || n == 0xa0 || n == 0x1680 ||
    (0x2000 ≤ n && n ≤ 0x200a) || n == 0x2028 || n == 0x2029 || n == 0x202f ||
    n == 0x205f || n == 0x3000

/-- The pieces between blanks, empty ones included; there is always at least one. -/
def pieces : List Char → List (List Char)
  | [] => [[]]
  | c :: cs =>
      if isBlank c then [] :: pieces cs
      else
        match pieces cs with
        | [] => [[c]]
        | p :: ps => (c :: p) :: ps

def tokens (cs : List Char) : List (List Char) :=
  (pieces cs).filter (fun p => !p.isEmpty)

end Predication.Text
