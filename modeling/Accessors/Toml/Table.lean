import Accessors.Toml.Basic

/-!
Putting together the tables of a TOML document. A table may be named before it is written, through the names
of tables inside it, but no table is written twice and no key has two values. A dotted key builds tables of
its own, which a header cannot reopen and which do not reach into tables that have a header.
-/

namespace Accessors.Toml

/-- What a key stands for while a document is read. -/
inductive Entry where
  | value (value : Toml)
  /-- A table: whether only the names inside it made it, and whether a dotted key did. -/
  | table (implicit dotted : Bool) (entries : List (String × Entry))
  /-- The tables of an array, each with a header of its own. -/
  | tables (elements : List (List (String × Entry)))

abbrev Entries := List (String × Entry)

/-- Sets a key, in its place if it is there. -/
def Entries.put (key : String) (entry : Entry) : Entries → Entries
  | [] => [(key, entry)]
  | (other, old) :: rest =>
      if other = key then (key, entry) :: rest else (other, old) :: Entries.put key entry rest

/-- Changes the table at the end of a path. Tables that are missing on the way are made; values and, for a
dotted key, tables with a header are no way through. -/
def Entries.descend (dotted : Bool) (change : Bool → Entries → Option Entries) :
    List String → Bool → Entries → Option Entries
  | [], isDotted, entries => change isDotted entries
  | key :: path, _, entries => do
      match entries.lookup key with
      | none =>
          let inner ← descend dotted change path dotted []
          return entries.put key (.table true dotted inner)
      | some (.table implicit innerDotted inner) =>
          if dotted && !implicit then none
          else
            let inner ← descend dotted change path innerDotted inner
            return entries.put key (.table implicit innerDotted inner)
      | some (.tables elements) =>
          let last ← elements.getLast?
          let last ← descend dotted change path false last
          return entries.put key (.tables (elements.dropLast ++ [last]))
      | some (.value _) => none

/-- A value under a dotted key. -/
structure Assignment where
  path : List String
  key : String
  value : Toml

/-- Adds a value. The table it goes to has to be one that dotted keys made if the key is dotted. -/
def Entries.assign (entries : Entries) (a : Assignment) : Option Entries :=
  entries.descend true (fun isDotted inner =>
    if isDotted == a.path.isEmpty then none
    else if (inner.lookup a.key).isSome then none
    else some (inner ++ [(a.key, .value a.value)])) a.path false

/-- The table that some assignments make of one. -/
def Entries.assignAll (entries : Entries) (assignments : List Assignment) : Option Entries :=
  assignments.foldlM Entries.assign entries

/-- What opens a part of a document. -/
inductive Header where
  | table (path : List String) (key : String)
  | element (path : List String) (key : String)

/-- Adds a part with its header. -/
def Entries.addPart (entries : Entries) (header : Header) (assignments : List Assignment) :
    Option Entries :=
  match header with
  | .table path key =>
      entries.descend false (fun _ inner => do
        let start ←
          match inner.lookup key with
          | none => some []
          | some (.table true false entries) => some entries
          | some _ => none
        return inner.put key (.table false false (← Entries.assignAll start assignments))) path false
  | .element path key =>
      entries.descend false (fun _ inner => do
        let before ←
          match inner.lookup key with
          | none => some []
          | some (.tables elements) => some elements
          | some _ => none
        return inner.put key (.tables (before ++ [← Entries.assignAll [] assignments]))) path false

mutual

def Entry.toml : Entry → Toml
  | .value value => value
  | .table _ _ entries => .table (entriesToml entries)
  | .tables elements => .array (elementsToml elements)

def entriesToml : List (String × Entry) → List (String × Toml)
  | [] => []
  | (key, entry) :: rest => (key, entry.toml) :: entriesToml rest

def elementsToml : List (List (String × Entry)) → List Toml
  | [] => []
  | entries :: rest => .table (entriesToml entries) :: elementsToml rest

end

end Accessors.Toml
