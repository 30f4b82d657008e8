import Accessors.Crate.Layout
import Accessors.Parsing.Source
import Accessors.Scope.Imports

/-!
Loading a module of a crate. A module is reached from the entry file through `mod` declarations: a body in
braces, the file a `path` attribute names, or a file found by the module's name.
-/

namespace Accessors

structure Module where
  /-- The segments of its path; the first is `crate`. -/
  segments : List String
  file : File.Path
  items : List Item
  deriving Inhabited

namespace Module

def path (m : Module) : String := Text.join "::" m.segments

def symbols (m : Module) : List Symbol := Symbol.ofItems m.items

def imports (m : Module) : ImportMap := ImportMap.ofItems m.items m.segments

end Module

/-- How far a walk through `mod` declarations has come. -/
structure Walk where
  file : File.Path
  items : List Item
  /-- Where the files of modules declared here are looked for. -/
  childDir : File.Path
  /-- What `path` attributes are read from. -/
  attributeDir : File.Path
  deriving Inhabited

def directoryOf (file : File.Path) : File.Path := file.parent?.getD ⟨"."⟩

def itemsOf (t : File.Tree) (file : File.Path) : Except LoadFault (List Item) := do
  let text ← (t.readText file).mapError (LoadFault.unreadable file)
  (Parsing.fileItems text).mapError (LoadFault.syntaxError file)

/-- What a `mod` declaration of the given name says: the file it names, and its body. -/
def moduleDeclared (segment : String) : Item → Option (Option String × Option (List Item))
  | .module name file body => if unraw name.text = segment then some (file, body) else none
  | _ => none

namespace Walk

/-- A walk that starts at a file. -/
def start (t : File.Tree) (entry : File.Path) : Except LoadFault Walk := do
  let items ← itemsOf t entry
  return ⟨entry, items, directoryOf entry, directoryOf entry⟩

/-- The file of a module without a body, and where the files of its own modules are. -/
def locate (t : File.Tree) (w : Walk) (segment : String) (named : Option String) :
    Except LoadFault (File.Path × File.Path) :=
  match named with
  | some text =>
      let file := w.attributeDir.join ⟨text⟩
      .ok (file, directoryOf file)
  | none =>
      let flat := w.childDir.join ⟨segment ++ ".rs"⟩
      let inner := w.childDir.join ⟨segment⟩
      let nested := inner.join ⟨"mod.rs"⟩
      if t.isFile flat then .ok (flat, inner)
      else if t.isFile nested then .ok (nested, inner)
      else .error (.missingFile segment flat nested)

def descend (t : File.Tree) (w : Walk) (segment : String) : Except LoadFault Walk :=
  match w.items.findSome? (moduleDeclared segment) with
  | none => .error (.undeclared segment w.file)
  | some (_, some body) =>
      let dir := w.childDir.join ⟨segment⟩
      .ok ⟨w.file, body, dir, dir⟩
  | some (named, none) => do
      let (file, childDir) ← w.locate t segment named
      let items ← itemsOf t file
      return ⟨file, items, childDir, directoryOf file⟩

end Walk

namespace Module

/-- The module with the given segments, of which the first stands for the entry file. -/
def loadSegments (t : File.Tree) (layout : CrateLayout) (segments : List String) :
    Except ResolutionError Module :=
  let loaded : Except LoadFault Module := do
    let walk ← (segments.drop 1).foldlM (Walk.descend t) (← Walk.start t layout.entry)
    return ⟨segments, walk.file, walk.items⟩
  loaded.mapError (ResolutionError.moduleLoad (Text.join "::" segments))

/-- The segments a module path means. It may start with `crate`, with the name of the crate, or with a module
of the crate. -/
def normalize (layout : CrateLayout) (path : String) : Except LoadFault (List String) :=
  match Parsing.pathText path with
  | .error _ => .error .badPath
  | .ok (true, _) => .error .rootedPath
  | .ok (false, written) =>
      match written.map fun s => unraw s.name.text with
      | [] => .ok ["crate"]
      | first :: rest =>
          if first = "crate" ∨ first = layout.crateName then .ok ("crate" :: rest)
          else if first = "self" ∨ first = "super" ∨ first = "Self" then .error .relativePath
          else .ok ("crate" :: first :: rest)

def load (t : File.Tree) (layout : CrateLayout) (path : String) : Except ResolutionError Module := do
  loadSegments t layout (← (normalize layout path).mapError (ResolutionError.moduleLoad path))

/-- The module with the given path in the crate under a directory. -/
def loadFrom (t : File.Tree) (root : File.Path) (path : String) : Except ResolutionError Module := do
  load t (← (CrateLayout.discover t root).mapError (ResolutionError.moduleLoad "crate")) path

end Module

end Accessors
