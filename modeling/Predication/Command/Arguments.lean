import Predication.Command

namespace Predication.Arguments

inductive Refusal where
  | help
  | usage
  deriving DecidableEq

inductive Form where
  | plain
  | endOfOptions
  | long (name : String) (value : Option String)
  | short (letters : List Char)

def splitAtEquals (cs : List Char) : String × Option String :=
  match cs.span (· != '=') with
  | (name, []) => (String.ofList name, none)
  | (name, _ :: value) => (String.ofList name, some (String.ofList value))

def Form.of (arg : String) : Form :=
  match arg.toList with
  | ['-', '-'] => .endOfOptions
  | '-' :: '-' :: rest => .long (splitAtEquals rest).1 (splitAtEquals rest).2
  | '-' :: c :: rest => .short (c :: rest)
  | _ => .plain

inductive Flag where
  | db
  | verbose
  | seedFile
  | attributes
  | core
  deriving DecidableEq

def Flag.name : Flag → String
  | .db => "db"
  | .verbose => "verbose"
  | .seedFile => "seed-file"
  | .attributes => "attributes"
  | .core => "core"

def Flag.takesPath : Flag → Bool
  | .db => true
  | .seedFile => true
  | _ => false

abbrev Given := List (Flag × String)

def Given.has (g : Given) (f : Flag) : Bool :=
  g.any (fun p => p.1 == f)

def Given.path? (g : Given) (f : Flag) : Option String :=
  (g.find? (fun p => p.1 == f)).map Prod.snd

def Given.add (g : Given) (f : Flag) (value : String) : Except Refusal Given :=
  if g.has f || (f.takesPath && value.isEmpty) then .error .usage else .ok ((f, value) :: g)

def readLong (flags : List Flag) (name : String) (value : Option String) (rest : List String) :
    Except Refusal (Flag × String × Bool) :=
  if name = "help" then .error (if value.isSome then .usage else .help)
  else
    match flags.find? (fun f => f.name == name) with
    | none => .error .usage
    | some f =>
        match f.takesPath, value with
        | false, none => .ok (f, "", false)
        | false, some _ => .error .usage
        | true, some v => .ok (f, v, false)
        | true, none =>
            match rest with
            | [] => .error .usage
            | v :: _ =>
                match Form.of v with
                | .plain => .ok (f, v, true)
                | _ => .error .usage

structure Shape where
  flags : List Flag := []
  arity : Nat := 0
  paths : Bool := false

def Shape.accepts (shape : Shape) (values : List String) : Bool :=
  !shape.paths || values.all fun v => !v.isEmpty

def globalFlags : List Flag := [.db, .verbose]

/-- Reads the arguments after a command's name. The values in front of an option are looked at
before the option is. -/
def readCommand (shape : Shape) (g : Given) (values : List String) (onlyValues : Bool) :
    List String → Except Refusal (Given × List String)
  | [] =>
      if values.length = shape.arity ∧ shape.accepts values then .ok (g, values)
      else .error .usage
  | arg :: rest =>
      let addValue :=
        if values.length < shape.arity then readCommand shape g (values ++ [arg]) onlyValues rest
        else .error .usage
      if onlyValues then addValue
      else
        match Form.of arg with
        | .plain => addValue
        | .endOfOptions => readCommand shape g values true rest
        | .short letters =>
            .error (if shape.accepts values && letters.head? = some 'h' then .help else .usage)
        | .long name value =>
            if !shape.accepts values then .error .usage
            else
              match readLong (shape.flags ++ globalFlags) name value rest with
              | .error e => .error e
              | .ok (f, v, separate) =>
                  match g.add f v, separate, rest with
                  | .error e, _, _ => .error e
                  | .ok g, true, _ :: rest => readCommand shape g values false rest
                  | .ok g, _, rest => readCommand shape g values false rest

def shape? (command : String) : Option Shape :=
  match command with
  | "setup" => some { flags := [.seedFile] }
  | "symbols" => some {}
  | "lookup" => some { arity := 1 }
  | "stats" => some {}
  | "remove" => some { arity := 1 }
  | "upsert" => some { arity := 3 }
  | "expand" => some { flags := [.attributes], arity := 1, paths := true }
  | "verb" => some { flags := [.core], arity := 1 }
  | _ => none

def command? (name : String) (g : Given) (values : List String) : Option Command :=
  match name, values with
  | "setup", [] => some (.setup (g.path? .seedFile))
  | "symbols", [] => some .symbols
  | "lookup", [n] => some (.lookup n)
  | "stats", [] => some .stats
  | "remove", [n] => some (.remove n)
  | "upsert", [n, c, e] => some (.upsert ⟨n, c, e⟩)
  | "expand", [f] => some (.expand f (if g.has .attributes then .attributes else .verbs))
  | "verb", [r] => some (.verb r (g.has .core))
  | _, _ => none

/-- An option after the command's name goes before the same option in front of it. -/
def invocation? (outer : Given) (name : String) (g : Given) (values : List String) :
    Option Invocation :=
  (command? name g values).map fun c =>
    { db := (g.path? .db).or (outer.path? .db)
      verbose := g.has .verbose || outer.has .verbose
      command := c }

def readHelp : List String → Refusal
  | [] => .help
  | [name] => if (shape? name).isSome ∨ name = "help" then .help else .usage
  | _ => .usage

def Given.settle (g : Given) : Option (Flag × String) → Except Refusal Given
  | none => .ok g
  | some (f, v) => g.add f v

def readInvocation (outer : Given) (last : Option (Flag × String)) (command : String)
    (rest : List String) : Except Refusal Invocation :=
  if command = "help" then .error (readHelp rest)
  else
    match shape? command with
    | none => .error .usage
    | some shape =>
        match readCommand shape [] [] false rest with
        | .error e => .error e
        | .ok (g, values) =>
            match outer.settle last with
            | .error e => .error e
            | .ok outer =>
                match invocation? outer command g values with
                | some i => .ok i
                | none => .error .usage

/-- Reads all the arguments. The flags in front of the command's name are in `outer`, but for a
path that stands last among them: it is looked at when another option comes, or else after the
command. -/
def read (outer : Given) (last : Option (Flag × String)) :
    List String → Except Refusal Invocation
  | [] => .error .usage
  | arg :: rest =>
      match Form.of arg with
      | .plain => readInvocation outer last arg rest
      | .endOfOptions => .error .usage
      | .short letters =>
          match outer.settle last with
          | .error e => .error e
          | .ok _ => .error (if letters.head? = some 'h' then .help else .usage)
      | .long name value =>
          match outer.settle last with
          | .error e => .error e
          | .ok outer =>
              match readLong globalFlags name value rest with
              | .error e => .error e
              | .ok (f, v, separate) =>
                  match separate, rest with
                  | true, _ :: rest => read outer (some (f, v)) rest
                  | _, rest =>
                      match outer.add f v with
                      | .error e => .error e
                      | .ok outer => read outer none rest

def parse (args : List String) : Except Refusal Invocation :=
  read [] none args

end Predication.Arguments
