import Accessors.Crate.Fault
import Accessors.File.Tree
import Accessors.Name
import Accessors.Toml.Document
import Accessors.Toml.Section

/-!
Where the sources of a crate are. The manifest names the package and may name the library and its entry file;
else the entry is `src/lib.rs`, or `src/main.rs` if that is missing.
-/

namespace Accessors

/-- The parts of a manifest that are looked at. -/
structure Manifest where
  packageName : Option String
  libName : Option String
  libPath : Option File.Path
  deriving DecidableEq, Repr, Inhabited

/-- The manifest a document makes. -/
def Manifest.ofToml? (document : List (String × Toml)) : Option Manifest := do
  let packageName ← Toml.optionalSection? document "package" fun value => do
    Toml.text? (← value.section? false ["name"]) "name"
  let library ← Toml.optionalSection? document "lib" fun value => do
    let entries ← value.section? false ["name", "path"]
    return (← Toml.optionalText? entries "name", ← Toml.optionalText? entries "path")
  let (libName, libPath) := library.getD (none, none)
  return ⟨packageName, libName, libPath.map File.Path.mk⟩

structure CrateLayout where
  root : File.Path
  /-- The name of the crate as paths write it. -/
  crateName : String
  entry : File.Path
  deriving DecidableEq, Repr, Inhabited

namespace CrateLayout

/-- The files an entry is looked for in. -/
def entryNames : List File.Path := [⟨"src/lib.rs"⟩, ⟨"src/main.rs"⟩]

def discover (t : File.Tree) (root : File.Path) : Except LoadFault CrateLayout := do
  let file := root.join ⟨"Cargo.toml"⟩
  let text ← (t.readText file).mapError (LoadFault.unreadable file)
  match (Toml.parse text).bind Manifest.ofToml? with
  | none => .error (.invalidManifest file)
  | some manifest =>
      match manifest.packageName with
      | none => .error (.noPackage file)
      | some packageName =>
          let crateName := crateIdent (manifest.libName.getD packageName)
          match manifest.libPath with
          | some path => .ok ⟨root, crateName, root.join path⟩
          | none =>
              match (entryNames.map root.join).find? t.isFile with
              | some entry => .ok ⟨root, crateName, entry⟩
              | none => .error (.noEntry root)

end CrateLayout

end Accessors
