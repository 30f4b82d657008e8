import Accessors.Proofs.ModuleSpelling
import Accessors.Proofs.QualifiedNames
import Accessors.Proofs.ScopedNames
import Accessors.Proofs.SingleUses
import Accessors.Proofs.TargetSpellings

/-!
One import, looked up twice. A `use` declaration binds its name without the mark of a raw identifier. Where an alias
leads is told by the first name of its target without that mark, so the import is found under either spelling. The
writing of types takes the name as it is spelled: with the mark no import is found, and the name is written instead of
the path. For an import whose name is a reserved word the mark cannot be left out.
-/

namespace Accessors

/-- A name that is imported has no mark. -/
theorem bare_of_last_leaf {items : List Item} {name : String} {leaf : UseLeaf}
    (last : lastLeaf? items name = some leaf) : unraw name = name := by
  obtain ⟨_, s, _, _, binds, _⟩ := (last_leaf_iff items name leaf.path).mp ⟨leaf, last, rfl⟩
  generalize leaf.path = path at binds
  cases binds with
  | name => exact Ident.unraw_bare _
  | self => exact Ident.unraw_bare _
  | rename => exact Ident.unraw_bare _
  | renameSelf => exact Ident.unraw_bare _

theorem Module.bare_of_import {m : Module} {name : String} {path : List String}
    (bound : m.imports.get? name = some path) : unraw name = name := by
  rw [imports, ImportMap.get_of_items] at bound
  obtain ⟨leaf, last, _⟩ := Option.map_eq_some_iff.mp bound
  exact bare_of_last_leaf last

namespace Signature

/-- What stands behind the first name of a path: its arguments and the other segments. -/
def behind (imports : ImportMap) (first : Segment) (rest : List Segment) : String :=
  Text.join "::" (written imports (argsParts first) :: rest.map fun s => written imports (segment s))

theorem ty_of_path (imports : ImportMap) (first : Segment) (rest : List Segment) :
    ty imports (.path false (first :: rest)) = importedText imports first.name.text ++ behind imports first rest := by
  have path : ty imports (.path false (first :: rest)) = written imports (pathParts (first :: rest)) := by
    rw [ty, parts]
  rw [path, written_path, behind, join_append_head]

/-- The name of the first segment does not matter to what stands behind it. -/
theorem behind_rename (imports : ImportMap) (spelling : Ident) (first : Segment) (rest : List Segment) :
    behind imports (first.rename spelling) rest = behind imports first rest := by
  rw [behind, behind, Segment.args_rename]

end Signature

section

variable {m : Module} {first : Segment} {rest : List Segment} {path : List String}

/-- A path through an import leads along the path that the import stands for, however its first name is spelled. -/
theorem classify_through_import (bound : m.imports.get? (unraw first.name.text) = some path)
    (untyped : (Symbol.find? m.symbols (unraw first.name.text)).any (·.kind.isType) = false)
    (plain : unraw first.name.text ∉ pathWords) :
    AliasTarget.classify m (.path false (first :: rest))
      = (AliasTarget.ofPath? (path ++ rest.map fun s => unraw s.name.text)).getD
          (.foreign (Signature.ty m.imports (.path false (first :: rest)))) := by
  have noWord : ¬ (unraw first.name.text = "crate" ∨ unraw first.name.text = "self" ∨ unraw first.name.text = "super") := by
    simpa [pathWords] using plain
  cases rest with
  | nil => simp [AliasTarget.classify, untyped, bound]
  | cons second more => simp [AliasTarget.classify, AliasTarget.absolutePath, bound, noWord]

/-- Under the bound name itself an import is written, and under another spelling only if the path that it stands for
is that spelling. -/
theorem imported_text_iff (bound : m.imports.get? (unraw first.name.text) = some path) :
    Signature.importedText m.imports first.name.text = Text.join "::" path
      ↔ first.name.text = unraw first.name.text ∨ path = [first.name.text] := by
  by_cases spelled : first.name.text = unraw first.name.text
  · have found : Signature.importedText m.imports first.name.text = Text.join "::" path := by
      rw [Signature.importedText, spelled, bound]
    exact iff_of_true found (Or.inl spelled)
  · have unbound : m.imports.get? first.name.text = none := by
      cases other : m.imports.get? first.name.text with
      | none => rfl
      | some _ => exact absurd (m.bare_of_import other).symm spelled
    have kept : Signature.importedText m.imports first.name.text = first.name.text := by
      rw [Signature.importedText, unbound]
    rw [kept, eq_comm, joined_ident, or_iff_right spelled]

/-- A path whose first name is an import is led along the path of the import in every spelling. It is written with that
path, and so in one text in all spellings, exactly where the name has no mark, or where the import stands for the marked
name alone. -/
theorem import_found_iff (bound : m.imports.get? (unraw first.name.text) = some path)
    (untyped : (Symbol.find? m.symbols (unraw first.name.text)).any (·.kind.isType) = false)
    (plain : unraw first.name.text ∉ pathWords) (spelling : Ident) (same : unraw spelling.text = unraw first.name.text) :
    AliasTarget.classify m (.path false (first.rename spelling :: rest))
        = (AliasTarget.ofPath? (path ++ rest.map fun s => unraw s.name.text)).getD
            (.foreign (Signature.ty m.imports (.path false (first.rename spelling :: rest))))
      ∧ (Signature.ty m.imports (.path false (first.rename spelling :: rest))
            = Text.join "::" path ++ Signature.behind m.imports first rest
          ↔ spelling.text = unraw first.name.text ∨ path = [spelling.text])
      ∧ (Signature.ty m.imports (.path false (first.rename spelling :: rest))
            = Signature.ty m.imports (.path false (first.rename first.name.bare :: rest))
          ↔ spelling.text = unraw first.name.text ∨ path = [spelling.text]) := by
  have named (own : Ident) : (first.rename own).name.text = own.text := by rw [Segment.name_rename]
  have along (own : Ident) (again : unraw own.text = unraw first.name.text) :
      Signature.ty m.imports (.path false (first.rename own :: rest))
          = Text.join "::" path ++ Signature.behind m.imports first rest
        ↔ own.text = unraw first.name.text ∨ path = [own.text] := by
    have bound' : m.imports.get? (unraw (first.rename own).name.text) = some path := by rw [named, again, bound]
    have text := imported_text_iff bound'
    rw [named, again] at text
    rw [Signature.ty_of_path, Signature.behind_rename, named, String.append_left_inj]
    exact text
  have bare := (along first.name.bare first.name.unraw_bare).mpr (Or.inl rfl)
  refine ⟨?_, along spelling same, ?_⟩
  · apply classify_through_import
    · rw [named, same, bound]
    · rw [named, same, untyped]
    · rw [named, same]
      exact plain
  · rw [bare]
    exact along spelling same

end

namespace PrintedSample

abbrev crate : Ident := SpellingSample.crate
abbrev model : Ident := ⟨"model", by decide +kernel⟩
abbrev kind : Ident := ⟨"Kind", by decide +kernel⟩
abbrev marked : Ident := SpellingSample.outer

/-- A module that is imported under a reserved word, for which the mark is needed. -/
def m : Module := ⟨["crate"], ⟨"lib.rs"⟩, [.use false (.path crate (.rename model marked))]⟩

def target : Ty := .path false [.plain marked, .plain kind]

theorem bound : m.imports.get? (unraw marked.text) = some ["crate", "model"] := by decide +kernel

theorem untyped : (Symbol.find? m.symbols (unraw marked.text)).any (·.kind.isType) = false := by decide +kernel

theorem plain : unraw marked.text ∉ pathWords := by decide +kernel

end PrintedSample

open PrintedSample in
theorem import_of_sample_found :
    m.imports.get? (unraw marked.text) = some ["crate", "model"]
      ∧ Signature.ty m.imports (.path false [.plain marked.bare, .plain kind]) = "crate::model" ++ "::Kind" := by
  have found := (@import_found_iff m (.plain marked) [.plain kind] _ bound untyped plain marked.bare
    marked.unraw_bare).2.1.mpr (Or.inl rfl)
  have path : Text.join "::" ["crate", "model"] = "crate::model" := by decide +kernel
  have after : Signature.behind m.imports (.plain marked) [.plain kind] = "::Kind" := by decide +kernel
  rw [path, after] at found
  exact ⟨bound, found⟩

open PrintedSample in
/-- With its mark the import is followed, and the type is not written with the path of it. -/
theorem import_of_marked_unwritten :
    m.imports.get? (unraw marked.text) = some ["crate", "model"]
      ∧ (Symbol.find? m.symbols (unraw marked.text)).any (·.kind.isType) = false ∧ unraw marked.text ∉ pathWords
      ∧ AliasTarget.classify m target = .inModule ["crate", "model"] "Kind"
      ∧ Signature.ty m.imports target = "r#type::Kind"
      ∧ Signature.ty m.imports (.path false [.plain marked.bare, .plain kind]) = "crate::model::Kind" :=
  ⟨bound, untyped, plain, by decide +kernel, by decide +kernel, by decide +kernel⟩

end Accessors
