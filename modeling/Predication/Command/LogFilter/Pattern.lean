import Predication.Text.Decimal

/-!
Patterns for the values of fields: regular expressions, as far as whether a text is one. What is in
braces ends before the first closing brace, so a pattern has no counted repetition.
-/

namespace Predication.LogFilter

def isHex (c : Char) : Bool :=
  Text.isDigit c || ('a' ≤ c.toLower && c.toLower ≤ 'f')

def afterEscape? (c : Char) (rest : List Char) : Option (List Char) :=
  let digits (n : Nat) : Option (List Char) :=
    if n ≤ (rest.take n).length && (rest.take n).all isHex then some (rest.drop n) else none
  if "dDsSwWaftnrvAz".contains c then some rest
  else if c = 'x' then digits 2
  else if c = 'u' then digits 4
  else if c = 'U' then digits 8
  else if c = 'p' || c = 'P' then
    if rest.head?.any (fun k => "LMNPSZC".contains k) then some (rest.drop 1) else none
  else if c.isAlphanum || c = '<' || c = '>' || 0x80 ≤ c.toNat then none
  else some rest

/-- What follows a set of characters that is open `depth` times more; a bracket at the front of a
set is one of its characters. -/
def afterSet? : Nat → Nat → Bool → List Char → Option (List Char)
  | 0, _, _, _ => none
  | _, _, _, [] => none
  | fuel + 1, depth, front, c :: rest =>
      if c = '\\' then
        match rest with
        | [] => none
        | d :: rest => (afterEscape? d rest).bind (afterSet? fuel depth false)
      else if c = '[' then
        let inner := if rest.head? = some '^' then rest.drop 1 else rest
        afterSet? fuel (depth + 1) true inner
      else if c = ']' && !front then
        match depth with
        | 0 => some rest
        | depth + 1 => afterSet? fuel depth false rest
      else
        match rest with
        | '-' :: d :: _ =>
            if d != ']' && d != '[' && d != '\\' && d != '-' && d < c then none
            else afterSet? fuel depth false rest
        | _ => afterSet? fuel depth false rest

def isNameChar (c : Char) : Bool :=
  c.isAlphanum || c = '_' || c = '.' || c = '[' || c = ']'

def afterMarks? (rest : List Char) : Option (Bool × List Char) :=
  let named (rest : List Char) : Option (Bool × List Char) :=
    let name := rest.takeWhile isNameChar
    match rest.dropWhile isNameChar with
    | '>' :: rest =>
        if name.head?.any fun c => c.isAlpha || c = '_' then some (false, rest) else none
    | _ => none
  match rest with
  | '?' :: 'P' :: '<' :: rest => named rest
  | '?' :: '<' :: rest => named rest
  | '?' :: rest =>
      let isFlag (c : Char) : Bool := "imsUuxR-".contains c
      let flags := rest.takeWhile isFlag
      match rest.dropWhile isFlag with
      | ':' :: rest => some (false, rest)
      | ')' :: rest =>
          if flags.isEmpty || flags.getLast? = some '-' then none else some (true, rest)
      | _ => none
  | rest => some (false, rest)

/-- Whether the rest of a text is a pattern, behind `depth` open groups; `operand` says whether
there is something to repeat. -/
def isPatternFrom : Nat → Nat → Bool → List Char → Bool
  | 0, _, _, _ => false
  | _, depth, _, [] => depth == 0
  | fuel + 1, depth, operand, c :: rest =>
      if c = '\\' then
        match rest with
        | [] => false
        | d :: rest => (afterEscape? d rest).any (isPatternFrom fuel depth true)
      else if c = '[' then
        let inner := if rest.head? = some '^' then rest.drop 1 else rest
        (afterSet? (rest.length + 1) 0 true inner).any (isPatternFrom fuel depth true)
      else if c = '(' then
        match afterMarks? rest with
        | none => false
        | some (true, rest) => isPatternFrom fuel depth false rest
        | some (false, rest) => isPatternFrom fuel (depth + 1) false rest
      else if c = ')' then
        match depth with
        | 0 => false
        | depth + 1 => isPatternFrom fuel depth true rest
      else if c = '|' then isPatternFrom fuel depth false rest
      else if c = '*' || c = '+' || c = '?' then operand && isPatternFrom fuel depth true rest
      else if c = '\x7b' then false
      else isPatternFrom fuel depth true rest

def isPattern (text : String) : Bool :=
  isPatternFrom (text.length + 1) 0 false text.toList

def isPlusNumber (text : String) : Bool :=
  match text.toList with
  | '+' :: rest =>
      let name := (String.ofList rest).toLower
      let back := rest.dropWhile Text.isDigit
      let fraction := match back with
        | '.' :: back => back.dropWhile Text.isDigit
        | back => back
      let hasDigits := rest.head?.any Text.isDigit || (rest.drop 1).head?.any Text.isDigit
      let endsWell := match fraction with
        | [] => true
        | e :: back =>
            let digits := match back with
              | '+' :: ds => ds
              | '-' :: ds => ds
              | ds => ds
            (e = 'e' || e = 'E') && !digits.isEmpty && digits.all Text.isDigit
      name = "inf" || name = "infinity" || name = "nan" || (hasDigits && endsWell)
  | _ => false

def isFieldValue (text : String) : Bool :=
  isPlusNumber text || isPattern text

end Predication.LogFilter
