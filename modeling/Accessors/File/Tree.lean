import Accessors.File.Fault
import Accessors.File.Path

/-!
A tree of files. Every file and directory is found under its place, the list of names that lead to it from
the root; the directories above a place are entries of their own. A path is read from a working directory,
and every step of it has to be a directory, also a step that two dots undo again.
-/

namespace Accessors.File

/-- What a file holds: text, or bytes that are no text. -/
inductive Content where
  | text (text : String)
  | bytes (bytes : List UInt8)
  deriving DecidableEq, Repr, Inhabited

inductive Node where
  | directory
  | file (content : Content)
  /-- A device that takes no byte. -/
  | fullDevice
  deriving DecidableEq, Repr, Inhabited

/-- The names that lead from the root to a file. -/
abbrev Place := List (List Char)

/-- The files and directories below the root, which is always there, and the working directory. -/
structure Tree where
  entries : List (Place × Node)
  cwd : Place
  deriving DecidableEq, Repr, Inhabited

/-- The longest name, in bytes. -/
def longestName : Nat := 255

/-- The longest path, in bytes. -/
def longestPath : Nat := 4095

def Place.up (place : Place) : Place := place.dropLast

namespace Tree

/-- What is found under a place. -/
def node? (t : Tree) (place : Place) : Option Node :=
  if place = [] then some .directory else t.entries.lookup place

/-- Puts a node under a place, instead of what was there. -/
def putEntry (place : Place) (node : Node) : List (Place × Node) → List (Place × Node)
  | [] => [(place, node)]
  | (other, old) :: rest =>
      if other = place then (place, node) :: rest else (other, old) :: putEntry place node rest

def put (t : Tree) (place : Place) (node : Node) : Tree :=
  { t with entries := putEntry place node t.entries }

/-- One step from a place. -/
def step (t : Tree) (place : Place) (name : List Char) : Except Fault Place :=
  match t.node? place with
  | some .directory =>
      if name = [] ∨ name = ['.'] then .ok place
      else if name = ['.', '.'] then .ok place.up
      else if (String.ofList name).utf8ByteSize > longestName then .error .nameTooLong
      else
        match t.node? (place ++ [name]) with
        | some _ => .ok (place ++ [name])
        | none => .error .notFound
  | some _ => .error .notDirectory
  | none => .error .notFound

def pathOf (place : Place) : Path :=
  ⟨String.ofList ('/' :: Text.joinWith ['/'] place)⟩

def cwdPath (t : Tree) : Path := pathOf t.cwd

/-- What no path may be. -/
def pathFault? (p : Path) : Option Fault :=
  if p.text.toList.contains (Char.ofNat 0) then some .nulInPath
  else if p.isEmpty then some .notFound
  else if p.text.utf8ByteSize > longestPath then some .nameTooLong
  else none

/-- Where the reading of a path begins. -/
def base (t : Tree) (p : Path) : Place :=
  if p.isAbsolute then [] else t.cwd

/-- The place a path leads to. -/
def locate (t : Tree) (p : Path) : Except Fault Place :=
  match pathFault? p with
  | some fault => .error fault
  | none => (Text.splitAt '/' p.text.toList).foldlM t.step (t.base p)

/-- The node a path leads to. -/
def find? (t : Tree) (p : Path) : Except Fault Node := do
  match t.node? (← t.locate p) with
  | some node => .ok node
  | none => .error .notFound

def isFile (t : Tree) (p : Path) : Bool :=
  match t.find? p with
  | .ok (.file _) => true
  | _ => false

def isDirectory (t : Tree) (p : Path) : Bool :=
  match t.find? p with
  | .ok .directory => true
  | _ => false

def readText (t : Tree) (p : Path) : Except Fault String := do
  match ← t.find? p with
  | .file (.text text) => .ok text
  | .file (.bytes _) => .error .notText
  | .directory => .error .isDirectory
  | .fullDevice => .error .notText

/-- The place of a new entry: the directory its path names, and the name in it. A path that ends in a slash
or in dots names none. -/
def newPlace (t : Tree) (p : Path) : Except Fault (Option Place) :=
  match pathFault? p with
  | some fault => .error fault
  | none => do
      let names := Text.splitAt '/' p.text.toList
      let above ← names.dropLast.foldlM t.step (t.base p)
      match t.node? above, names.getLast? with
      | some .directory, some name =>
          if name = [] ∨ name = ['.'] ∨ name = ['.', '.'] then .ok none
          else if (String.ofList name).utf8ByteSize > longestName then .error .nameTooLong
          else .ok (some (above ++ [name]))
      | some _, _ => .error .notDirectory
      | none, _ => .error .notFound

/-- A path without slashes at its end. -/
def withoutEndSlash (p : Path) : Path :=
  match (p.text.toList.reverse.dropWhile (· == '/')).reverse with
  | [] => p
  | text => ⟨String.ofList text⟩

def makeDirectory (t : Tree) (p : Path) : Except Fault Tree :=
  match pathFault? p with
  | some fault => .error fault
  | none => do
      match ← t.newPlace (withoutEndSlash p) with
      | some place =>
          match t.node? place with
          | some _ => .error .exists
          | none => .ok (t.put place .directory)
      | none => .error .exists

/-- Makes a directory after those above it were made. What is made stays, even if the next fails. -/
def makeOwn (t : Tree) (p : Path) : Tree × Option Fault :=
  match t.makeDirectory p with
  | .ok t => (t, none)
  | .error fault => if t.isDirectory p then (t, none) else (t, some fault)

def makeRounds : Nat → Tree → Path → Tree × Option Fault
  | 0, t, p => t.makeOwn p
  | rounds + 1, t, p =>
      if p.isEmpty then (t, none)
      else
        match t.makeDirectory p with
        | .ok t => (t, none)
        | .error .notFound =>
            match p.parent? with
            | none => (t, some .noParent)
            | some up =>
                match makeRounds rounds t up with
                | (t, some fault) => (t, some fault)
                | (t, none) => t.makeOwn p
        | .error fault => if t.isDirectory p then (t, none) else (t, some fault)

/-- Makes a directory and all above it that are missing. -/
def makeDirectories (t : Tree) (p : Path) : Tree × Option Fault :=
  makeRounds (p.text.length + 1) t p

/-- Opens a file for writing: an empty file is put under the path, and its place is answered. A device is
left as it is. -/
def create (t : Tree) (p : Path) : Except Fault (Tree × Place) := do
  match ← t.newPlace p with
  | some place =>
      match t.node? place with
      | some .directory => .error .isDirectory
      | some .fullDevice => .ok (t, place)
      | _ => .ok (t.put place (.file (.text "")), place)
  | none => .error .isDirectory

/-- Removes what is under a place, with all below it. -/
def remove (t : Tree) (place : Place) : Tree :=
  { t with entries := t.entries.filter fun (other, _) => !place.isPrefixOf other }

/-- The regular files with their places. -/
def files (t : Tree) : List (Place × Content) :=
  t.entries.filterMap fun
    | (place, .file content) => some (place, content)
    | _ => none

/-- The regular files below a directory, each with the names that lead to it from there. -/
def filesBelow (t : Tree) (place : Place) : List (Place × Content) :=
  t.files.filterMap fun (other, content) =>
    if place.isPrefixOf other then some (other.drop place.length, content) else none

theorem lookup_putEntry (place other : Place) (node : Node) (entries : List (Place × Node)) :
    (putEntry place node entries).lookup other
      = if other = place then some node else entries.lookup other := by
  induction entries with
  | nil =>
      by_cases h : other = place
      · simp [putEntry, h]
      · have differs : (other == place) = false := by simpa using h
        simp [putEntry, List.lookup_cons, h, differs]
  | cons first rest ih =>
      obtain ⟨key, old⟩ := first
      by_cases hk : key = place
      · subst hk
        by_cases h : other = key
        · simp [putEntry, h]
        · have differs : (other == key) = false := by simpa using h
          simp [putEntry, List.lookup_cons, h, differs]
      · by_cases h : other = key
        · simp [putEntry, hk, h]
        · have differs : (other == key) = false := by simpa using h
          simp [putEntry, hk, List.lookup_cons, differs, ih]

/-- Writing under a place changes nothing elsewhere. -/
theorem node?_put (t : Tree) (place other : Place) (node : Node) (below : place ≠ []) :
    (t.put place node).node? other = if other = place then some node else t.node? other := by
  by_cases root : other = []
  · subst root
    simp [node?, Ne.symm below]
  · simp [node?, put, root, lookup_putEntry]

end Tree

end Accessors.File
