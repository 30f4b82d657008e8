import Accessors.Text.Basic

/-!
Identifiers as names: the mark `r#` makes an identifier of a reserved word and is no part of the name,
and a package is named in paths with underscores for its hyphens.
-/

namespace Accessors

/-- The mark that makes an identifier of a reserved word. -/
def rawMark : List Char := ['r', '#']

/-- An identifier without the mark that makes it raw; only one mark is taken off. -/
def unraw (ident : String) : String :=
  match Text.cutStart? rawMark ident.toList with
  | some name => String.ofList name
  | none => ident

theorem unraw_raw (name : List Char) : unraw (String.ofList (rawMark ++ name)) = String.ofList name := by
  simp [unraw, Text.cutStart?_append]

/-- The name a package has in paths. -/
def crateIdent (packageName : String) : String :=
  String.ofList (packageName.toList.map fun c => if c = '-' then '_' else c)

theorem hyphen_notMem_crateIdent (packageName : String) : '-' ∉ (crateIdent packageName).toList := by
  simp only [crateIdent, String.toList_ofList, List.mem_map, not_exists, not_and]
  intro c _ h
  split at h <;> simp_all

end Accessors
