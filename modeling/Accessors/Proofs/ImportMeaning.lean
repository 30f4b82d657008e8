import Accessors.Proofs.ItemPaths
import Accessors.Proofs.ReadBack
import Accessors.Proofs.ScopedNames

/-!
What is written for an imported name, read in the module again. It denotes what the `use` declaration imports as long
as the first name of the path leads there as it does in the declaration, which a leading `::` may not do without the
mark, nor a module of the name that the declaration itself binds; as long as the path does not climb after `self`;
and as long as no module around has a reserved word as its name.
-/

namespace Accessors

open Parsing (typeText)

/-- The path of some names as a type. -/
abbrev pathOfNames (rooted : Bool) (names : List Ident) : Ty := .path rooted (names.map .plain)

/-- A text names an item in a module: it is the writing of a path, is read as that path, and the path denotes the
item. -/
def NamesItem (m : Module) (modules : ModuleImports m) (text : String) (p : ItemPath) : Prop :=
  ∃ rooted names, text = Signature.ty .empty (pathOfNames rooted names) ∧ typeText text = .ok (pathOfNames rooted names)
    ∧ Denotes m modules none rooted (names.map Ident.text) p

/-- Names that a path can be read from. -/
def Readable (names : List Ident) : Prop :=
  (∀ first, names.head? = some first → first.Heads) ∧ ∀ name ∈ names, name.Names

theorem readable_of_free {names : List Ident} (free : ∀ name ∈ names, name.text ∉ Parsing.reserved) : Readable names :=
  ⟨fun first top => Or.inl (free first (List.mem_of_head? top)), fun name member => Or.inl (Or.inl (free name member))⟩

/-- An import that the path written for it still denotes. -/
structure Import.Kept (own : Import) (m : Module) (modules : ModuleImports m) : Prop where
  /-- The first name leads where it leads in the declaration. -/
  first : ∃ head rest base, own.path = head :: rest ∧ Denotes m modules (some own) own.rooted [head] base
    ∧ Denotes m modules none false [head] base
  /-- The path does not climb from `self`. -/
  direct : ∀ rest, own.path ≠ "self" :: "super" :: rest
  /-- No name of the absolute path is a reserved word. -/
  readable : ∃ names : List Ident, names.map Ident.text = absolutize own.path m.segments ∧ Readable names

section

variable {m : Module} {modules : ModuleImports m} {own : Import} {p : ItemPath} {names : List Ident}

theorem written_plain (names : List Ident) :
    (names.map Segment.plain).map (fun s => Signature.written .empty (Signature.segment s)) = names.map Ident.text := by
  simp [Signature.segment]

theorem ty_of_names (names : List Ident) :
    Signature.ty .empty (pathOfNames false names) = Text.join "::" (names.map Ident.text) := by
  rw [Signature.ty, Signature.parts, Signature.written_path_empty, written_plain]

theorem ty_of_rooted_names (names : List Ident) :
    Signature.ty .empty (pathOfNames true names) = "::" ++ Text.join "::" (names.map Ident.text) := by
  rw [Signature.ty, Signature.parts, Signature.written_text, Signature.written_separated, Signature.segment_list_eq,
    List.map_map, ← written_plain, List.map_map, List.map_map]
  rfl

theorem type_text_of_names : typeText (Signature.ty .empty (pathOfNames false names)) = .ok (pathOfNames false names)
    ↔ names ≠ [] ∧ Readable names := by
  constructor
  · intro read
    cases Parsing.made_of_typeText read with
    | path heads each =>
        refine ⟨fun none => heads.1 (by rw [none]; rfl), fun first same => ?_, fun name member => ?_⟩
        · exact heads.2 rfl (.plain first) (by rw [List.head?_map, same]; rfl)
        · cases each (.plain name) (List.mem_map_of_mem member) with
          | plain named => exact named
  · rintro ⟨some, heads, each⟩
    have made : (pathOfNames false names).Made true := by
      refine .path ⟨by simpa using some, fun _ first same => ?_⟩ fun s member => ?_
      · rw [List.head?_map] at same
        obtain ⟨name, top, rfl⟩ := Option.map_eq_some_iff.mp same
        exact heads name top
      · obtain ⟨name, listed, rfl⟩ := List.mem_map.mp member
        exact .plain (each name listed)
    refine made.read_back ?_
    have faithful : segmentsFaithful (names.map .plain) = true := by
      clear some heads each made
      induction names with
      | nil => rfl
      | cons name rest ih => simpa [segmentsFaithful, Segment.faithful] using ih
    exact faithful

/-- What is written for an imported name is the absolute path of the last import that binds it. -/
theorem written_for_import {name : Ident} (last : lastImport? m.items name.text = some own) :
    Signature.ty m.imports (pathOfNames false [name]) = Text.join "::" (absolutize own.path m.segments) := by
  have found : m.imports.get? name.text = some (absolutize own.path m.segments) := by
    rw [Module.imports, ImportMap.get_of_items, last_leaf_of_last_import last]
    rfl
  simp [Signature.ty, Signature.parts, Signature.written_path, Signature.importedText, found, Segment.name,
    Signature.argsParts, Text.join]

theorem Module.Loaded.located {t : File.Tree} {layout : CrateLayout} (loaded : m.Loaded t layout) :
    m.segments = "crate" :: m.around := by
  obtain ⟨rest, found⟩ := loaded
  rw [Module.around, segments_of_load_segments found, List.drop_one, List.tail_cons]

/-- The absolute path of an import has a first name, which is no empty text. -/
theorem absolute_head {t : File.Tree} {layout : CrateLayout} (loaded : m.Loaded t layout) {name : String}
    (last : lastImport? m.items name = some own) :
    ∃ head more, absolutize own.path m.segments = head :: more ∧ head ≠ "" := by
  cases written : own.path with
  | nil => exact absurd written (last_leaf_path_ne_nil (last_leaf_of_last_import last))
  | cons first rest =>
      by_cases climbs : first = "self" ∨ first = "super"
      · obtain ⟨more, absolute⟩ := absolutize_climbing rest loaded.located climbs
        exact ⟨"crate", more, absolute, by decide⟩
      · obtain ⟨own, same⟩ := last_leaf_idents (last_leaf_of_last_import last) first (by simp [written])
        refine ⟨first, rest, absolutize_straight (fun h => climbs (Or.inl h)) (fun h => climbs (Or.inr h)) _, ?_⟩
        rw [same]
        exact own.text_ne_empty

/-- What is written for an imported name denotes, in its module, what the `use` declaration brings there, exactly if
the import is kept. -/
theorem import_kept_iff {t : File.Tree} {layout : CrateLayout} (loaded : m.Loaded t layout) {name : Ident}
    (last : lastImport? m.items name.text = some own) (denotes : Denotes m modules (some own) own.rooted own.path p) :
    Signature.ty m.imports (pathOfNames false [name]) = Text.join "::" (absolutize own.path m.segments)
      ∧ (NamesItem m modules (Signature.ty m.imports (pathOfNames false [name])) p ↔ own.Kept m modules) := by
  have text := written_for_import last
  refine ⟨text, ?_⟩
  rw [text]
  have plain := loaded.leaf_colonless (last_leaf_of_last_import last)
  obtain ⟨head, more, absolute, filled⟩ := absolute_head loaded last
  have meaning := absolute_denotes_iff loaded.located denotes
  constructor
  · rintro ⟨rooted, names, same, read, here⟩
    have some : names.map Ident.text ≠ [] := by
      generalize names.map Ident.text = path at here
      cases here <;> simp
    have idents : ∀ piece ∈ names.map Ident.text, Text.Colonless piece := by
      intro piece member
      obtain ⟨name, _, rfl⟩ := List.mem_map.mp member
      exact name.colonless
    cases rooted with
    | true =>
        -- The writing begins with the first name, and not with a separator.
        have front : "::" ++ Text.join "::" (names.map Ident.text) = Text.join "::" ("" :: names.map Ident.text) := by
          rw [Text.join, Text.join, String.intercalate_cons_of_ne_nil some, String.empty_append]
        rw [ty_of_rooted_names, front] at same
        have pieces : ∀ piece ∈ "" :: names.map Ident.text, Text.Colonless piece := by
          refine List.forall_mem_cons.mpr ⟨?_, idents⟩
          simp [Text.Colonless]
        have spelled := Text.join_colons_inj (by simp [absolute]) (by simp) plain pieces same
        rw [absolute] at spelled
        exact absurd (List.cons.inj spelled).1 filled
    | false =>
        rw [ty_of_names] at same
        have spelled := Text.join_colons_inj (by simp [absolute]) some plain idents same
        rw [same, ← ty_of_names] at read
        rw [← spelled] at here
        obtain ⟨first, direct⟩ := meaning.mp here
        exact ⟨first, direct, names, spelled.symm, (type_text_of_names.mp read).2⟩
  · rintro ⟨first, direct, names, spelled, readable⟩
    have some : names ≠ [] := by
      rintro rfl
      simp [absolute] at spelled
    refine ⟨false, names, by rw [ty_of_names, spelled], ?_, ?_⟩
    · rw [← spelled, ← ty_of_names]
      exact type_text_of_names.mpr ⟨some, readable⟩
    · rw [spelled]
      exact meaning.mpr ⟨first, direct⟩

end

namespace MeaningSample

def layout : CrateLayout := ⟨⟨"/"⟩, "sample", ⟨"/lib.rs"⟩⟩

def tree (text : String) : File.Tree := ⟨[(["lib.rs".toList], .file (.text text))], []⟩

/-- A crate with an import from a module that is imported itself. -/
def chained : Module :=
  let c : Ident := ⟨"c", by decide +kernel⟩
  let d : Ident := ⟨"d", by decide +kernel⟩
  ⟨["crate"], ⟨"/lib.rs"⟩, [.use false (.path c (.name d)), .use false (.path d (.name TypeSample.b))]⟩

/-- The import of the module. -/
def outer : Import := ⟨⟨"d", ["c", "d"]⟩, false⟩

def modules : ModuleImports chained where
  find? name := if name = "d" then some outer else none
  imported name own found := by
    obtain ⟨rfl, rfl⟩ : name = "d" ∧ outer = own := by simpa using found
    have all : chained.items.flatMap Item.imports = [outer, ⟨⟨"B", ["d", "B"]⟩, false⟩] := rfl
    exact ⟨by rw [all]; exact List.mem_cons_self, rfl⟩

/-- An import from a crate that has the name of a module here. -/
def shadowed : Module :=
  let x : Ident := ⟨"x", by decide +kernel⟩
  ⟨["crate"], ⟨"/lib.rs"⟩, [.module x none (some []), .use true (.path x (.name TypeSample.b))]⟩

end MeaningSample

open MeaningSample in
theorem import_of_sample_kept :
    Module.loadSegments (tree "use c::d; use d::B;") layout ["crate"] = .ok chained
      ∧ ∃ own : Import, lastImport? chained.items "B" = some own ∧ own.Kept chained modules
      ∧ Signature.ty chained.imports (pathOfNames false [TypeSample.b]) = "d::B"
      ∧ NamesItem chained modules "d::B" ⟨some "c", ["d", "B"]⟩ := by
  have loaded : Module.loadSegments (tree "use c::d; use d::B;") layout ["crate"] = .ok chained := rfl
  have last : lastImport? chained.items "B" = some ⟨⟨"B", ["d", "B"]⟩, false⟩ := rfl
  have unmarked : unraw "c" = "c" ∧ unraw "d" = "d" ∧ unraw "B" = "B" := by decide +kernel
  have undeclared (name : String) : ¬ chained.DeclaresSub name := by
    rintro ⟨symbol, member, _⟩
    cases member
  have crate : Denotes chained modules (some outer) false ["c", "d"] _ :=
    .external (by decide) (undeclared "c") fun own found => absurd found (by simp [modules, unmarked])
  have here (unseen : Option Import) (rest : List String) (seen : unseen ≠ some outer) :
      Denotes chained modules unseen false ("d" :: rest) _ :=
    .imported (by decide) (undeclared "d") (by simp [modules, unmarked]) seen crate
  have other : some ⟨⟨"B", ["d", "B"]⟩, false⟩ ≠ some outer := by simp [outer]
  have denotes := here (some ⟨⟨"B", ["d", "B"]⟩, false⟩) ["B"] other
  have item : (ItemPath.below (ItemPath.below ⟨some (unraw "c"), []⟩ ["d"]) ["B"]) = ⟨some "c", ["d", "B"]⟩ := by
    simp [ItemPath.below, unmarked]
  rw [item] at denotes
  have kept : Import.Kept ⟨⟨"B", ["d", "B"]⟩, false⟩ chained modules := by
    refine ⟨⟨"d", ["B"], _, rfl, here _ [] other, here none [] (by simp)⟩, by simp, ?_⟩
    exact ⟨[⟨"d", by decide +kernel⟩, TypeSample.b], rfl, readable_of_free (by decide)⟩
  have written : Signature.ty chained.imports (pathOfNames false [TypeSample.b]) = _ ∧ _ :=
    import_kept_iff ⟨[], loaded⟩ last denotes
  have text : Signature.ty chained.imports (pathOfNames false [TypeSample.b]) = "d::B" := by decide +kernel
  rw [text] at written
  exact ⟨loaded, _, last, kept, text, written.2.mpr kept⟩

open MeaningSample in
/-- The declaration names a crate; without its leading separator the path begins with the module. -/
theorem import_from_crate_not_kept :
    Module.loadSegments (tree "mod x \x7b\x7d use ::x::B;") layout ["crate"] = .ok shadowed
      ∧ ∃ own : Import, lastImport? shadowed.items "B" = some own ∧ ∀ modules : ModuleImports shadowed,
        Denotes shadowed modules (some own) own.rooted own.path ⟨some "x", ["B"]⟩
          ∧ Signature.ty shadowed.imports (pathOfNames false [TypeSample.b]) = "x::B"
          ∧ NamesItem shadowed modules "x::B" ⟨none, ["x", "B"]⟩
          ∧ ¬ NamesItem shadowed modules "x::B" ⟨some "x", ["B"]⟩ := by
  have loaded : Module.loadSegments (tree "mod x \x7b\x7d use ::x::B;") layout ["crate"] = .ok shadowed := rfl
  have last : lastImport? shadowed.items "B" = some ⟨⟨"B", ["x", "B"]⟩, true⟩ := rfl
  have unmarked : unraw "x" = "x" ∧ unraw "B" = "B" := by decide +kernel
  refine ⟨loaded, _, last, fun modules => ?_⟩
  have outside (rest : List String) : Denotes shadowed modules (some ⟨⟨"B", ["x", "B"]⟩, true⟩) true ("x" :: rest) _ :=
    .rooted
  have inside (rest : List String) : Denotes shadowed modules none false ("x" :: rest) _ :=
    .declared (by decide) ⟨_, List.mem_cons_self, rfl, rfl⟩
  have crate : ItemPath.below ⟨some (unraw "x"), []⟩ ["B"] = ⟨some "x", ["B"]⟩ := by simp [ItemPath.below, unmarked]
  have here : ItemPath.below ⟨none, []⟩ (shadowed.around ++ ["x", "B"]) = ⟨none, ["x", "B"]⟩ := by
    simp [ItemPath.below, Module.around, shadowed, unmarked]
  have denotes := outside ["B"]
  rw [crate] at denotes
  have written : Signature.ty shadowed.imports (pathOfNames false [TypeSample.b]) = _ ∧ _ :=
    import_kept_iff ⟨[], loaded⟩ last denotes
  have text : Signature.ty shadowed.imports (pathOfNames false [TypeSample.b]) = "x::B" := by decide +kernel
  rw [text] at written
  refine ⟨denotes, text, ?_, fun named => ?_⟩
  · let names : List Ident := [⟨"x", by decide +kernel⟩, TypeSample.b]
    have same : Signature.ty .empty (pathOfNames false names) = "x::B" := by decide +kernel
    refine ⟨false, names, same.symm, ?_, by rw [← here]; exact inside ["B"]⟩
    rw [← same]
    exact type_text_of_names.mpr ⟨by simp [names], readable_of_free (by decide)⟩
  · obtain ⟨head, rest, base, path, leads, back⟩ := (written.2.mp named).first
    cases path
    cases ((outside []).unique leads).trans (back.unique (inside []))

end Accessors
