import Predication.Text.Combining
import Predication.Text.Unprintable

namespace Predication.Text

def needsCode (c : Char) : Bool :=
  isCombining c || isUnprintable c

/-- One character inside quotes; `coded` chooses the characters written by their code point. -/
def quoteCharWith (coded : Char → Bool) (c : Char) : List Char :=
  if c = '\x00' then ['\\', '0']
  else if c = '\t' then ['\\', 't']
  else if c = '\r' then ['\\', 'r']
  else if c = '\n' then ['\\', 'n']
  else if c = '\\' then ['\\', '\\']
  else if c = '"' then ['\\', '"']
  else if coded c then ['\\', 'u', '\x7b'] ++ Nat.toDigits 16 c.toNat ++ ['\x7d']
  else [c]

def quoteWith (coded : Char → Bool) (cs : List Char) : List Char :=
  '"' :: cs.flatMap (quoteCharWith coded) ++ ['"']

def quote (s : String) : String :=
  String.ofList (quoteWith needsCode s.toList)

end Predication.Text
