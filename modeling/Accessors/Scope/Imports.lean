import Accessors.Decl.Item
import Accessors.Name
import Accessors.Scope.Absolute

/-!
The names that `use` declarations bring into a module, each with its absolute path. A glob and a rename to
`_` bind no name. Of two declarations that bind one name the later counts.
-/

namespace Accessors

/-- Names with absolute paths, no name twice. -/
structure ImportMap where
  bindings : List (String × List String)
  deriving DecidableEq, Repr, Inhabited

namespace ImportMap

def empty : ImportMap := ⟨[]⟩

/-- Binds a name, in the place of what it was bound to. -/
def bind (name : String) (path : List String) : List (String × List String) → List (String × List String)
  | [] => [(name, path)]
  | (other, old) :: rest =>
      if other = name then (name, path) :: rest else (other, old) :: bind name path rest

/-- The path a name is bound to. -/
def get? (map : ImportMap) (name : String) : Option (List String) :=
  map.bindings.lookup name

def size (map : ImportMap) : Nat := map.bindings.length

def isEmpty (map : ImportMap) : Bool := map.bindings.isEmpty

/-- Binds a name, without its raw mark, to a path as it is written in a module. An empty path binds
nothing. -/
def insert (module : List String) (map : ImportMap) (name : String) (path : List String) : ImportMap :=
  if path.isEmpty then map else ⟨bind (unraw name) (absolutize path module) map.bindings⟩

mutual

/-- Adds what a tree under a path binds. -/
def addTree (module path : List String) (map : ImportMap) : UseTree → ImportMap
  | .path name tree => addTree module (path ++ [name.text]) map tree
  | .name name =>
      if name.text = "self" then
        match path.getLast? with
        | some last => map.insert module last path
        | none => map
      else map.insert module name.text (path ++ [name.text])
  | .rename name newName =>
      if newName.text = "_" then map
      else if name.text = "self" then map.insert module newName.text path
      else map.insert module newName.text (path ++ [name.text])
  | .glob => map
  | .group trees => addTrees module path map trees

def addTrees (module path : List String) (map : ImportMap) : List UseTree → ImportMap
  | [] => map
  | tree :: rest => addTrees module path (addTree module path map tree) rest

end

/-- Adds what an item binds. A leading `::` is not kept. -/
def addItem (module : List String) (map : ImportMap) : Item → ImportMap
  | .use _ tree => addTree module [] map tree
  | _ => map

/-- The imports of a module with the given items. -/
def ofItems (items : List Item) (module : List String) : ImportMap :=
  items.foldl (addItem module) empty

theorem lookup_bind (name other : String) (path : List String) (bindings : List (String × List String)) :
    (bind name path bindings).lookup other = if other = name then some path else bindings.lookup other := by
  induction bindings with
  | nil =>
      by_cases h : other = name
      · simp [bind, h]
      · have differs : (other == name) = false := by simpa using h
        simp [bind, List.lookup_cons, h, differs]
  | cons first rest ih =>
      obtain ⟨key, old⟩ := first
      by_cases hk : key = name
      · subst hk
        by_cases h : other = key
        · simp [bind, h]
        · have differs : (other == key) = false := by simpa using h
          simp [bind, List.lookup_cons, h, differs]
      · by_cases h : other = key
        · simp [bind, hk, h]
        · have differs : (other == key) = false := by simpa using h
          simp [bind, hk, List.lookup_cons, differs, ih]

end ImportMap

end Accessors
