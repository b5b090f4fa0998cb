namespace Predication.Path

def pieces (path : String) : List String :=
  path.splitOn "/"

def isAbsolute (path : String) : Bool :=
  path.startsWith "/"

def isIdle (piece : String) : Bool :=
  piece.isEmpty || piece == "."

/-- The path without its last piece that is not idle; none if only idle pieces are left. -/
def parent? (path : String) : Option String :=
  match (pieces path).reverse.dropWhile isIdle with
  | [] => none
  | _ :: above =>
      match above.dropWhile isIdle with
      | [] => none
      | above => some ("/".intercalate above.reverse)

def ancestors : Nat → String → List String
  | 0, _ => []
  | fuel + 1, path =>
      match parent? path with
      | none => []
      | some above => above :: ancestors fuel above

def within (directory path : String) : String :=
  if isAbsolute path then path
  else if directory.isEmpty || directory.endsWith "/" then directory ++ path
  else directory ++ "/" ++ path

/-- Whether a name has the extension: a dot and the extension end it, and something stands in
front of the dot. -/
def hasExtension (extension name : String) : Bool :=
  name.endsWith ("." ++ extension) && decide (extension.length + 1 < name.length)

end Predication.Path
