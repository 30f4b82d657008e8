import Accessors.Toml.Basic

/-!
Sections of a document with known keys. A section may be a table, where a strict one has no other keys, or an
array that holds all its values in the order of the keys. A date counts as a table with a key of its own.
-/

namespace Accessors.Toml

/-- The values of a section by their keys. -/
def section? (strict : Bool) (keys : List String) : Toml → Option (List (String × Toml))
  | .table entries => if strict && entries.any (fun e => !keys.contains e.1) then none else some entries
  | .array elements => if elements.length < keys.length then none else some (keys.zip elements)
  | .date _ => if strict then none else some []
  | _ => none

/-- A string that may be missing; nothing else may stand for it. -/
def optionalText? (entries : List (String × Toml)) (key : String) : Option (Option String) :=
  match entries.lookup key with
  | none => some none
  | some (.string text) => some (some text)
  | some _ => none

/-- A string that may not be missing. -/
def text? (entries : List (String × Toml)) (key : String) : Option String :=
  (optionalText? entries key).join

/-- A section that may be missing, read by a reader of its values. -/
def optionalSection? {α : Type} (entries : List (String × Toml)) (key : String) (read : Toml → Option α) :
    Option (Option α) :=
  match entries.lookup key with
  | none => some none
  | some value => (read value).map some

end Accessors.Toml
