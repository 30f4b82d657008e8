/-!
The arguments of the command. They are read from left to right, and the first that cannot be accepted ends the
reading, as a request for help does. What is not given as an argument is taken from a variable of the environment.

An argument that begins with a hyphen is an option and never the value of one; a lone hyphen is a value, and
after two hyphens nothing is an option any more.
-/

namespace Accessors.CommandLine

/-- What can be set. -/
inductive Setting where
  | file
  | package
  | crateRoot
  | outputDir
  | templateDir
  | config
  deriving DecidableEq, Repr, Inhabited

namespace Setting

def all : List Setting := [file, package, crateRoot, outputDir, templateDir, config]

def option : Setting → String
  | file => "file"
  | package => "package"
  | crateRoot => "crate-root"
  | outputDir => "output-dir"
  | templateDir => "template-dir"
  | config => "config"

/-- The variable that sets it, unless the option does. -/
def inherited? : Setting → Option String
  | file => some "ACCESSOR_GEN_FILE"
  | package => some "ACCESSOR_GEN_PACKAGE"
  | crateRoot => some "ACCESSOR_GEN_CRATE_ROOT"
  | outputDir => some "ACCESSOR_GEN_OUTPUT_DIR"
  | templateDir => some "ACCESSOR_GEN_TEMPLATE_DIR"
  | config => none

/-- Whether it is a path, which must not be empty. -/
def isPath : Setting → Bool
  | file | package => false
  | _ => true

def accepts (s : Setting) (value : String) : Bool := !(s.isPath && value.isEmpty)

end Setting

/-- What the arguments say. -/
structure Given where
  reference : Option String
  settings : List (Setting × String)
  verbosity : Nat
  deriving DecidableEq, Repr, Inhabited

inductive Request where
  | help
  | version
  | generate (reference : String) (settings : List (Setting × String)) (verbosity : Nat)
  deriving DecidableEq, Repr, Inhabited

inductive Refusal where
  | unknownOption (text : String)
  | unexpectedValue (option : String)
  | missingValue (option : String)
  | emptyValue (option : String)
  | givenTwice (option : String)
  | unexpectedArgument (text : String)
  | missingReference
  deriving DecidableEq, Repr, Inhabited

def Refusal.message : Refusal → String
  | .unknownOption text => "unexpected argument '" ++ text ++ "' found"
  | .unexpectedValue option => "unexpected value for '--" ++ option ++ "'"
  | .missingValue option => "a value is required for '--" ++ option ++ "' but none was supplied"
  | .emptyValue option => "a value is required for '--" ++ option ++ "' but it is empty"
  | .givenTwice option => "the argument '--" ++ option ++ "' cannot be used multiple times"
  | .unexpectedArgument text => "unexpected argument '" ++ text ++ "' found"
  | .missingReference => "the type reference was not provided"

namespace Given

def empty : Given := ⟨none, [], 0⟩

/-- Sets what was not set before. -/
def set (g : Given) (s : Setting) (value : String) : Except Refusal Given :=
  if (g.settings.lookup s).isSome then .error (.givenTwice s.option)
  else if !s.accepts value then .error (.emptyValue s.option)
  else .ok { g with settings := g.settings ++ [(s, value)] }

/-- Takes an argument that is no option. -/
def take (g : Given) (text : String) : Except Refusal Given :=
  match g.reference with
  | none => .ok { g with reference := some text }
  | some _ => .error (.unexpectedArgument text)

/-- The request that is made when all arguments are read. -/
def finish (env : String → Option String) (g : Given) : Except Refusal Request := do
  let settings ← Setting.all.foldlM (fun g s =>
    match g.settings.lookup s, s.inherited?.bind env with
    | none, some value => g.set s value
    | _, _ => .ok g) g
  match g.reference with
  | some reference => .ok (.generate reference settings.settings g.verbosity)
  | none => .error .missingReference

end Given

inductive Argument where
  /-- Two hyphens: the end of the options. -/
  | separator
  | long (name : String) (value : Option String)
  | short (letters : List Char)
  | plain (text : String)
  deriving DecidableEq, Repr, Inhabited

/-- Takes an argument for what it begins with. -/
def Argument.ofText (text : String) : Argument :=
  match text.toList with
  | ['-', '-'] => .separator
  | '-' :: '-' :: rest =>
      let name := rest.takeWhile (· != '=')
      match rest.drop name.length with
      | _ :: value => .long (String.ofList name) (some (String.ofList value))
      | [] => .long (String.ofList name) none
  | '-' :: c :: rest => .short (c :: rest)
  | _ => .plain text

/-- Reads letters that are options without values. Ends with a request or goes on. -/
def readLetters (g : Given) : List Char → Except Refusal (Request ⊕ Given)
  | [] => .ok (.inr g)
  | 'h' :: _ => .ok (.inl .help)
  | 'V' :: _ => .ok (.inl .version)
  | 'v' :: rest => readLetters { g with verbosity := g.verbosity + 1 } rest
  | c :: _ => .error (.unknownOption ("-" ++ String.singleton c))

/-- Reads an option with a long name that takes no value. -/
def readFlag (g : Given) (name : String) (value : Option String) : Except Refusal (Request ⊕ Given) :=
  match name, value with
  | "help", none => .ok (.inl .help)
  | "version", none => .ok (.inl .version)
  | "verbose", none => .ok (.inr { g with verbosity := g.verbosity + 1 })
  | "help", some _ | "version", some _ | "verbose", some _ => .error (.unexpectedValue name)
  | _, _ => .error (.unknownOption ("--" ++ name))

/-- Reads arguments. Everything is plain after the separator. -/
def readArguments (env : String → Option String) (g : Given) : List String → Except Refusal Request
  | [] => g.finish env
  | text :: rest =>
      match Argument.ofText text with
      | .separator => do (← rest.foldlM Given.take g).finish env
      | .plain text => do readArguments env (← g.take text) rest
      | .short letters => do
          match ← readLetters g letters with
          | .inl request => return request
          | .inr g => readArguments env g rest
      | .long name value =>
          match Setting.all.find? fun s => s.option == name, value, rest with
          | none, value, rest => do
              match ← readFlag g name value with
              | .inl request => return request
              | .inr g => readArguments env g rest
          | some s, some value, rest => do readArguments env (← g.set s value) rest
          | some s, none, next :: rest =>
              match Argument.ofText next with
              | .plain value => do readArguments env (← g.set s value) rest
              | _ => .error (.missingValue s.option)
          | some s, none, [] => .error (.missingValue s.option)

/-- What the arguments and the environment ask for. -/
def request (env : String → Option String) (args : List String) : Except Refusal Request :=
  readArguments env .empty args

end Accessors.CommandLine
