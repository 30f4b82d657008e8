import Accessors.File.Tree
import Accessors.Toml.Document
import Accessors.Toml.Section

/-!
The settings of a run. Each setting comes from the highest of three layers that has it: what the caller
overrides, the settings file, and the default. Relative paths in the settings file are read from the file's
directory, those of the caller from the working directory.
-/

namespace Accessors

open File (Fault)

inductive ConfigFault where
  | unreadable (file : File.Path) (fault : Fault)
  | invalid (file : File.Path)
  /-- No directory from here upwards holds the marker of a crate. -/
  | noCrateRoot (start : File.Path)
  deriving DecidableEq, Repr, Inhabited

/-- The file that marks the root of a crate. -/
def crateMarker : File.Path := ⟨"Cargo.toml"⟩

def ConfigFault.message : ConfigFault → String
  | .unreadable file fault => "failed to read " ++ file.text ++ ": " ++ fault.message
  | .invalid file => "failed to parse " ++ file.text ++ ": not a settings file"
  | .noCrateRoot start =>
      "no " ++ crateMarker.text ++ " found in " ++ start.text ++ " or any parent directory"

structure ConfigFile where
  crateRoot : Option File.Path
  outputDir : Option File.Path
  templatesDir : Option File.Path
  deriving DecidableEq, Repr, Inhabited

namespace ConfigFile

/-- The name of the settings file in the root of a crate. -/
def fileName : File.Path := ⟨"accessor-gen.toml"⟩

def empty : ConfigFile := ⟨none, none, none⟩

/-- The settings of a document, which has no other keys. -/
def ofToml? (document : List (String × Toml)) : Option ConfigFile := do
  let entries ← (Toml.table document).section? true ["crate_root", "output_dir", "templates"]
  let crateRoot ← Toml.optionalText? entries "crate_root"
  let outputDir ← Toml.optionalText? entries "output_dir"
  let templatesDir ← Toml.optionalSection? entries "templates" fun value => do
    Toml.optionalText? (← value.section? true ["dir"]) "dir"
  return ⟨crateRoot.map File.Path.mk, outputDir.map File.Path.mk, templatesDir.join.map File.Path.mk⟩

/-- The settings with relative paths read from a directory. -/
def readFrom (base : File.Path) (c : ConfigFile) : ConfigFile :=
  ⟨c.crateRoot.map base.join, c.outputDir.map base.join, c.templatesDir.map base.join⟩

def load (t : File.Tree) (file : File.Path) : Except ConfigFault ConfigFile := do
  let text ← (t.readText file).mapError (ConfigFault.unreadable file)
  match (Toml.parse text).bind ofToml? with
  | some c => .ok (c.readFrom (file.parent?.getD ⟨"."⟩))
  | none => .error (.invalid file)

end ConfigFile

structure Overrides where
  configFile : Option File.Path
  crateRoot : Option File.Path
  outputDir : Option File.Path
  templateDir : Option File.Path
  deriving DecidableEq, Repr, Inhabited

/-- The settings of a run. Without a template directory the built-in templates are used. -/
structure Config where
  crateRoot : File.Path
  outputDir : File.Path
  templateDir : Option File.Path
  deriving DecidableEq, Repr, Inhabited

/-- The nearest directory from `start` upwards that holds a manifest. -/
def findCrateRoot (t : File.Tree) (start : File.Path) : Except ConfigFault File.Path :=
  match start.ancestors.find? fun dir => t.isFile (dir.join crateMarker) with
  | some dir => .ok dir
  | none => .error (.noCrateRoot start)

namespace Config

/-- The settings file in the root of a crate, or no settings. -/
def fileOfRoot (t : File.Tree) (crateRoot : File.Path) : Except ConfigFault ConfigFile :=
  let file := crateRoot.join ConfigFile.fileName
  if t.isFile file then ConfigFile.load t file else .ok .empty

/-- The settings from all layers. -/
def resolve (t : File.Tree) (o : Overrides) (cwd : File.Path) : Except ConfigFault Config := do
  let given ←
    match o.configFile with
    | some file => some <$> ConfigFile.load t (cwd.join file)
    | none => pure none
  let crateRoot ←
    match o.crateRoot, given.bind (·.crateRoot) with
    | some root, _ => pure (cwd.join root)
    | none, some root => pure root
    | none, none => findCrateRoot t cwd
  let file ←
    match given with
    | some file => pure file
    | none => fileOfRoot t crateRoot
  return {
    crateRoot
    outputDir := ((o.outputDir.map cwd.join).or file.outputDir).getD cwd
    templateDir := (o.templateDir.map cwd.join).or file.templatesDir }

end Config

end Accessors
