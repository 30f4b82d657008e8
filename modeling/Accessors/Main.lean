import Accessors.CommandLine.Command

/-!
The program. It reads the files that the command looks at, runs the command on them, and writes what the command
changed.

The directories from the working directory upwards are read without what is below them, and the crate and the
templates with it.
-/

namespace Accessors

open File (Place Content Node)

def helpText : String :=
  "Generate getter and setter methods for a Rust struct\n\n"
    ++ "Usage: accessor-gen [OPTIONS] <TYPE_REF>\n\n"
    ++ "Arguments:\n"
    ++ "  <TYPE_REF>  Qualified type reference, e.g. crate::models.TodoItem\n\n"
    ++ "Options:\n"
    ++ "      --file <FILE>                  Source file that triggered generation\n"
    ++ "      --package <PACKAGE>            Package name declared in the generated header\n"
    ++ "      --crate-root <CRATE_ROOT>      Root of the package to inspect\n"
    ++ "      --output-dir <OUTPUT_DIR>      Directory the generated file is written under\n"
    ++ "      --template-dir <TEMPLATE_DIR>  Directory with header.rs.tera and get_set.rs.tera\n"
    ++ "      --config <CONFIG>              Configuration file\n"
    ++ "  -v, --verbose...                   Increase log verbosity\n"
    ++ "  -h, --help                         Print help\n"
    ++ "  -V, --version                      Print version"

def versionText : String := "accessor-gen 0.2.0"

/-- How deep directories below a crate are read. -/
def readingDepth : Nat := 64

/-- Directories that hold built or earlier versions of files. -/
def skippedDirectories : List String := ["target", ".git"]

/-- The place of an absolute path without dots. -/
def placeOf (path : String) : Place :=
  (Text.splitAt '/' path.toList).filter fun name => name ≠ []

/-- Reads a file into a tree. -/
def readFile (path : String) (t : File.Tree) : IO File.Tree := do
  let bytes ← IO.FS.readBinFile path
  let content : Content :=
    match String.fromUTF8? bytes with
    | some text => .text text
    | none => .bytes bytes.toList
  return t.put (placeOf path) (.file content)

/-- Reads a directory into a tree, and what is below it to a depth. -/
def readDirectory (depth : Nat) (path : String) (t : File.Tree) : IO File.Tree := do
  let mut t := (t.makeDirectories ⟨path⟩).1
  for entry in ← (← IO.FS.realPath path).readDir do
    let name := entry.path.toString
    match (← entry.path.metadata).type, depth with
    | .file, _ => t ← readFile name t
    | .dir, depth + 1 =>
        if !skippedDirectories.contains entry.fileName then t ← readDirectory depth name t
    | _, _ => pure ()
  return t

/-- Reads what a path leads to, if it is there. -/
def readPath (path : File.Path) (t : File.Tree) : IO File.Tree := do
  try
    let real ← IO.FS.realPath path.text
    if (← real.metadata).type == .dir then readDirectory readingDepth real.toString t
    else readFile real.toString t
  catch _ => return t

/-- Reads the files that the command looks at. -/
def readFiles (env : String → Option String) (args : List String) (cwd : File.Path) : IO File.Tree := do
  let mut t : File.Tree := ⟨[], placeOf cwd.text⟩
  for directory in cwd.ancestors do
    t ← readDirectory 0 directory.text t
  match CommandLine.request env args with
  | .ok (.generate _ settings _) =>
      if let some file := settings.lookup .config then
        t ← readPath (cwd.join ⟨file⟩) t
      let overrides := CommandLine.overridesOf settings
      if let some root := overrides.crateRoot then
        t ← readPath (cwd.join root) t
      if let .ok (_, config) := CommandLine.prepare t settings cwd then
        t ← readPath config.crateRoot t
        if let some dir := config.templateDir then
          t ← readPath dir t
  | _ => pure ()
  return t

/-- Writes what is new in a tree. -/
def writeChanges (before after : File.Tree) : IO Unit := do
  for (place, node) in after.entries do
    if before.node? place ≠ some node then
      let path := (File.Tree.pathOf place).text
      match node with
      | .directory => IO.FS.createDirAll path
      | .file (.text text) => IO.FS.writeFile path text
      | .file (.bytes bytes) => IO.FS.writeBinFile path ⟨bytes.toArray⟩
      | .fullDevice => pure ()

/-- The variables that can be set in the environment. -/
def readEnvironment : IO (String → Option String) := do
  let names := CommandLine.Setting.all.filterMap CommandLine.Setting.inherited?
  let values ← names.mapM fun name => do return (name, ← IO.getEnv name)
  return fun name => (values.lookup name).join

/-- Runs the command on the files of the system. -/
def runOnFiles (args : List String) : IO UInt32 := do
  let env ← readEnvironment
  let cwd : File.Path := ⟨(← IO.currentDir).toString⟩
  let before ← readFiles env args cwd
  let (ending, after) := CommandLine.run env args before
  try writeChanges before after
  catch e =>
    IO.eprintln ("Error: " ++ e.toString)
    return 1
  match ending with
  | .help => IO.println helpText
  | .version => IO.println versionText
  | .refused refusal => IO.eprintln ("error: " ++ refusal.message)
  | _ => pure ()
  if let some diagnostic := ending.diagnostic? then
    IO.eprintln diagnostic
  return UInt32.ofNat ending.exitCode

end Accessors

def main (args : List String) : IO UInt32 := Accessors.runOnFiles args
