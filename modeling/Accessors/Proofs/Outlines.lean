import Accessors.Proofs.ItemPaths
import Accessors.Proofs.SuggestedReference
import Accessors.Proofs.UseLeaves

/-!
What resolution looks at, without the marks of raw identifiers. The outline of an item has its names unmarked, and of
a target it keeps the path and whether there are arguments. What a module declares and imports, and where a target in
it leads, is read off the outlines, except that the paths of imports keep their marks.
-/

namespace Accessors

/-! Names. -/

theorem Lexer.not_raw_of_never_raw : ∀ word ∈ neverRaw, ∀ rest, word.toList ≠ 'r' :: '#' :: rest := by
  intro word listed rest
  simp only [neverRaw, List.mem_cons, List.not_mem_nil, or_false] at listed
  rcases listed with rfl | rfl | rfl | rfl | rfl <;> simp

namespace Ident

/-- A word that takes no mark is the same with and without. -/
theorem unraw_eq_iff {name : Ident} {word : String} (never : word ∈ Lexer.neverRaw) :
    unraw name.text = word ↔ name.text = word := by
  rcases Lexer.word_shape name with ⟨_, plain⟩ | ⟨rest, shape, _, _, allowed⟩
  · rw [unraw_of_plain plain]
  · have text : name.text = String.ofList (rawMark ++ rest) := by
      rw [← String.toList_inj, shape, String.toList_ofList]
      rfl
    apply iff_of_false
    · rw [text, unraw_raw]
      rintro rfl
      exact allowed never
    · rintro rfl
      exact Lexer.not_raw_of_never_raw _ never rest shape

theorem bare_text (name : Ident) : name.bare.text = unraw name.text := rfl

end Ident

/-- The pieces of a path are written as identifiers. -/
def Written (path : List String) : Prop := ∀ piece ∈ path, ∃ own : Ident, piece = own.text

namespace Written

variable {path : List String}

theorem unraw_unraw {piece : String} (written : Written path) (member : piece ∈ path) :
    unraw (unraw piece) = unraw piece := by
  obtain ⟨own, rfl⟩ := written piece member
  exact own.unraw_bare

theorem unraw_eq_iff {piece word : String} (written : Written path) (member : piece ∈ path)
    (never : word ∈ Lexer.neverRaw) : unraw piece = word ↔ piece = word := by
  obtain ⟨own, rfl⟩ := written piece member
  exact own.unraw_eq_iff never

theorem append_text (written : Written path) (own : Ident) : Written (path ++ [own.text]) := by
  intro piece member
  rcases List.mem_append.mp member with above | last
  · exact written piece above
  · exact ⟨own, List.mem_singleton.mp last⟩

/-- The run of `super` that leads a path. -/
theorem supers_unraw (written : Written path) :
    (path.map unraw).takeWhile (· == "super") = (path.takeWhile (· == "super")).map unraw := by
  induction path with
  | nil => rfl
  | cons first rest ih =>
      have same : (unraw first == "super") = (first == "super") := by
        rw [Bool.eq_iff_iff, beq_iff_eq, beq_iff_eq]
        exact written.unraw_eq_iff List.mem_cons_self (by decide)
      have later := ih fun piece member => written piece (List.mem_cons_of_mem first member)
      rw [List.map_cons, List.takeWhile_cons, List.takeWhile_cons, same, later]
      split <;> rfl

end Written

/-- Making a path absolute does not depend on marks. -/
theorem absolutize_unraw {path : List String} (written : Written path) (module : List String) :
    (absolutize path module).map unraw = absolutize (path.map unraw) (module.map unraw) := by
  cases path with
  | nil => rfl
  | cons first rest =>
      have isSelf : unraw first = "self" ↔ first = "self" := written.unraw_eq_iff List.mem_cons_self (by decide)
      have isSuper : unraw first = "super" ↔ first = "super" := written.unraw_eq_iff List.mem_cons_self (by decide)
      by_cases own : first = "self"
      · have bare := isSelf.mpr own
        rw [own] at bare ⊢
        rw [List.map_cons, bare, absolutize_self, absolutize_self, List.map_append]
      by_cases above : first = "super"
      · have bare := isSuper.mpr above
        have ups := written.supers_unraw
        rw [above] at bare ups ⊢
        rw [List.map_cons, bare] at ups ⊢
        unfold absolutize
        simp only [ups, List.length_map, List.map_append, List.map_take, List.map_drop, List.map_cons, bare]
      · rw [absolutize_straight own above, List.map_cons,
          absolutize_straight (fun same => own (isSelf.mp same)) (fun same => above (isSuper.mp same))]

/-! Imports. -/

mutual

/-- A tree with its names unmarked. -/
def UseTree.bare : UseTree → UseTree
  | .path first tree => .path first.bare tree.bare
  | .name own => .name own.bare
  | .rename own new => .rename own.bare new.bare
  | .glob => .glob
  | .group trees => .group (UseTree.bareAll trees)

def UseTree.bareAll : List UseTree → List UseTree
  | [] => []
  | tree :: rest => tree.bare :: UseTree.bareAll rest

end

/-- A leaf with its path unmarked; its name has no mark. -/
def UseLeaf.bare (leaf : UseLeaf) : UseLeaf := ⟨leaf.name, leaf.path.map unraw⟩

theorem UseLeaf.binding_bare {name : String} (idempotent : unraw (unraw name) = unraw name) (path : List String) :
    UseLeaf.binding (unraw name) (path.map unraw) = (UseLeaf.binding name path).map UseLeaf.bare := by
  unfold UseLeaf.binding
  cases path with
  | nil => rfl
  | cons first rest => simp [UseLeaf.bare, idempotent]

mutual

/-- The leaves of an unmarked tree are the leaves of the tree, unmarked. -/
theorem UseTree.leaves_of_bare {path : List String} (written : Written path) (tree : UseTree) :
    tree.bare.leaves (path.map unraw) = (tree.leaves path).map UseLeaf.bare := by
  have further (own : Ident) : path.map unraw ++ [own.bare.text] = (path ++ [own.text]).map unraw := by
    simp [Ident.bare_text]
  cases tree with
  | path name tree =>
      rw [UseTree.bare, UseTree.leaves, UseTree.leaves, further]
      exact UseTree.leaves_of_bare (written.append_text name) tree
  | name own =>
      have same : unraw own.text = "self" ↔ own.text = "self" := own.unraw_eq_iff (by decide)
      rw [UseTree.bare, UseTree.leaves, UseTree.leaves, Ident.bare_text]
      by_cases isSelf : own.text = "self"
      · rw [if_pos isSelf, if_pos (same.mpr isSelf), List.getLast?_map]
        cases last : path.getLast? with
        | none => rfl
        | some name =>
            exact UseLeaf.binding_bare (written.unraw_unraw (List.mem_of_getLast? last)) path
      · rw [if_neg isSelf, if_neg (fun word => isSelf (same.mp word)), ← Ident.bare_text, further]
        exact UseLeaf.binding_bare own.unraw_bare _
  | rename own new =>
      have same : unraw own.text = "self" ↔ own.text = "self" := own.unraw_eq_iff (by decide)
      have blank : unraw new.text = "_" ↔ new.text = "_" := new.unraw_eq_iff (by decide)
      rw [UseTree.bare, UseTree.leaves, UseTree.leaves, Ident.bare_text, Ident.bare_text]
      by_cases isBlank : new.text = "_"
      · rw [if_pos isBlank, if_pos (blank.mpr isBlank)]
        rfl
      rw [if_neg isBlank, if_neg (fun word => isBlank (blank.mp word))]
      by_cases isSelf : own.text = "self"
      · rw [if_pos isSelf, if_pos (same.mpr isSelf)]
        exact UseLeaf.binding_bare new.unraw_bare path
      · rw [if_neg isSelf, if_neg (fun word => isSelf (same.mp word)), ← own.bare_text, further]
        exact UseLeaf.binding_bare new.unraw_bare _
  | glob => simp [UseTree.bare, UseTree.leaves]
  | group trees =>
      rw [UseTree.bare, UseTree.leaves, UseTree.leaves]
      exact UseTree.leaves_of_all_bare written trees

theorem UseTree.leaves_of_all_bare {path : List String} (written : Written path) (trees : List UseTree) :
    UseTree.leavesOfAll (path.map unraw) (UseTree.bareAll trees)
      = (UseTree.leavesOfAll path trees).map UseLeaf.bare := by
  cases trees with
  | nil => simp [UseTree.bareAll, UseTree.leavesOfAll]
  | cons tree rest =>
      rw [UseTree.bareAll, UseTree.leavesOfAll, UseTree.leavesOfAll, List.map_append,
        UseTree.leaves_of_bare written tree, UseTree.leaves_of_all_bare written rest]

end

/-! Targets. -/

/-- What resolution looks at of a segment: its name without the mark, and whether it has arguments. -/
def Segment.outline : Segment → Segment
  | .plain name => .plain name.bare
  | .angle name turbofish _ => .angle name.bare turbofish []
  | .call name _ _ => .call name.bare [] none

/-- What resolution looks at of a target. -/
def Ty.outline : Ty → Ty
  | .paren inner => .paren inner.outline
  | .path rooted segments => .path rooted (segments.map Segment.outline)
  | .projection _ rooted traitPath rest =>
      .projection .never rooted (traitPath.map Segment.outline) (rest.map Segment.outline)
  | _ => .never

theorem Segment.name_of_outline (s : Segment) : s.outline.name = s.name.bare := by
  cases s <;> rfl

theorem Segment.has_args_of_outline (s : Segment) : s.outline.hasArgs = s.hasArgs := by
  cases s <;> rfl

theorem any_has_args_of_outline (segments : List Segment) :
    (segments.map Segment.outline).any Segment.hasArgs = segments.any Segment.hasArgs := by
  rw [List.any_map]
  exact congrArg segments.any (funext Segment.has_args_of_outline)

theorem Ty.has_args_of_outline (target : Ty) : target.outline.hasArgs = target.hasArgs := by
  fun_induction Ty.hasArgs target with
  | case1 inner ih => exact ih
  | case2 rooted segments => exact any_has_args_of_outline segments
  | case3 subject rooted traitPath rest =>
      simp only [Ty.outline, Ty.hasArgs, any_has_args_of_outline]
  | case4 target noParen noPath noProjection =>
      unfold Ty.outline
      split
      · exact absurd rfl (noParen _)
      · exact absurd rfl (noPath _ _)
      · exact absurd rfl (noProjection _ _ _ _)
      · rfl

/-! Items. -/

mutual

/-- What resolution looks at of an item, with names unmarked. -/
def Item.outline : Item → Item
  | .struct decl => .struct { decl with name := decl.name.bare }
  | .enum name => .enum name.bare
  | .union name => .union name.bare
  | .trait name => .trait name.bare
  | .typeAlias decl => .typeAlias { decl with name := decl.name.bare, target := decl.target.outline }
  | .function name => .function name.bare
  | .const name => .const name.bare
  | .static name => .static name.bare
  | .module name file body => .module name.bare file (Item.outlineBody body)
  | .macroCall name => .macroCall (name.map Ident.bare)
  | .use rooted tree => .use rooted tree.bare
  | .impl decl => .impl decl
  | .other => .other

def Item.outlineBody : Option (List Item) → Option (List Item)
  | none => none
  | some items => some (Item.outlineAll items)

def Item.outlineAll : List Item → List Item
  | [] => []
  | item :: rest => item.outline :: Item.outlineAll rest

end

namespace Item

theorem outline_all_eq (items : List Item) : outlineAll items = items.map outline := by
  induction items with
  | nil => rw [outlineAll, List.map_nil]
  | cons item rest ih => rw [outlineAll, ih, List.map_cons]

theorem struct_of_outline {item : Item} {decl : StructDecl} (same : item.outline = (struct decl).outline) :
    ∃ other, item = .struct other ∧ other.fields = decl.fields := by
  cases item <;> simp_all [outline]

theorem alias_of_outline {item : Item} {decl : AliasDecl} (same : item.outline = (typeAlias decl).outline) :
    ∃ other, item = .typeAlias other ∧ other.target.outline = decl.target.outline := by
  cases item <;> simp_all [outline]

theorem leaves_of_outline (item : Item) : item.outline.leaves = item.leaves.map UseLeaf.bare := by
  cases item with
  | use rooted tree =>
      rw [outline, leaves, leaves]
      have nothing : Written [] := by simp [Written]
      exact tree.leaves_of_bare nothing
  | _ => simp [outline, leaves]

/-- What an item declares keeps its kind, and its name but for the mark. -/
theorem declared_of_outline (item : Item) :
    item.outline.declared? = item.declared?.map fun (name, kind) => (name.bare, kind) := by
  cases item with
  | macroCall name => cases name <;> simp [outline, declared?]
  | _ => simp [outline, declared?]

end Item

theorem last_leaf_of_outline (items : List Item) (name : String) :
    lastLeaf? (items.map Item.outline) name = (lastLeaf? items name).map UseLeaf.bare := by
  have leaves : (items.map Item.outline).flatMap Item.leaves = (items.flatMap Item.leaves).map UseLeaf.bare := by
    rw [List.flatMap_map, List.map_flatMap]
    exact congrArg (items.flatMap ·) (funext Item.leaves_of_outline)
  unfold lastLeaf?
  rw [leaves, ← List.map_reverse, List.find?_map]
  rfl

namespace Symbol

def outline (s : Symbol) : Symbol := { s with item := s.item.outline }

theorem of_items_outline (items : List Item) : ofItems (items.map Item.outline) = (ofItems items).map outline := by
  have each (item : Item) : ofItem? item.outline = (ofItem? item).map outline := by
    unfold ofItem?
    rw [item.declared_of_outline]
    cases item.declared? with
    | none => rfl
    | some declared => simpa [outline, Ident.bare_text] using declared.1.unraw_bare
  unfold ofItems
  rw [List.filterMap_map, List.map_filterMap]
  exact congrArg (List.filterMap · items) (funext each)

/-- Lookup does not depend on marks. -/
theorem find_outline {symbols : List Symbol} {name : String} :
    find? (symbols.map outline) name = (find? symbols name).map outline := by
  unfold find?
  simp only [List.filter_map, List.find?_map, List.head?_map, Option.map_or]
  rfl

theorem find_congr {symbols : List Symbol} {name other : String} (same : unraw name = unraw other) :
    find? symbols name = find? symbols other := by
  unfold find?
  rw [same]

end Symbol

/-! Modules, and where targets in them lead. -/

namespace Module

variable {m : Module}

def outline (m : Module) : Module := { m with items := m.items.map Item.outline }

theorem symbols_of_outline (m : Module) : m.outline.symbols = m.symbols.map Symbol.outline :=
  Symbol.of_items_outline m.items

/-- The segments of the module have no marks, as those of loaded modules have not. -/
def Unmarked (m : Module) : Prop := m.segments.map unraw = m.segments

theorem Loaded.unmarked {t : File.Tree} {layout : CrateLayout} (loaded : m.Loaded t layout) : m.Unmarked := by
  obtain ⟨crate, names, word, segments, _, plain⟩ := loaded.words
  have first : unraw "crate" = "crate" := by decide
  have rest : (names.map Ident.text).map unraw = names.map Ident.text := by
    rw [List.map_map]
    exact List.map_congr_left plain
  rw [Unmarked, segments, List.map_cons, first, rest]

/-- An import of the outline is the import of the module with its path unmarked. -/
theorem imports_of_outline (unmarked : m.Unmarked) (name : String) :
    m.outline.imports.get? name = (m.imports.get? name).map (List.map unraw) := by
  unfold imports outline
  rw [ImportMap.get_of_items, ImportMap.get_of_items, last_leaf_of_outline]
  cases last : lastLeaf? m.items name with
  | none => rfl
  | some leaf =>
      have written : Written leaf.path := last_leaf_idents last
      simp only [Option.map_some, UseLeaf.bare]
      rw [absolutize_unraw written, unmarked]

end Module

/-! Where targets lead. -/

/-- A piece of a path in a module is written as an identifier, or is a segment of the module. -/
def Module.Piece (m : Module) (piece : String) : Prop := (∃ own : Ident, piece = own.text) ∨ piece ∈ m.segments

namespace Module

variable {m : Module}

theorem Piece.crate_iff {piece : String} (sound : m.Piece piece) (unmarked : m.Unmarked) :
    unraw piece = "crate" ↔ piece = "crate" := by
  rcases sound with ⟨own, rfl⟩ | listed
  · exact own.unraw_eq_iff (by decide)
  · rw [List.map_inj_left.mp (unmarked.trans (List.map_id' m.segments).symm) piece listed]

theorem pieces_of_absolutize {path : List String} (written : Written path) :
    ∀ piece ∈ absolutize path m.segments, m.Piece piece := by
  intro piece member
  rcases mem_of_absolutize member with inPath | inModule
  · exact Or.inl (written piece inPath)
  · exact Or.inr inModule

end Module

namespace AliasTarget

/-- Where a target leads, but for marks. -/
def bare : AliasTarget → AliasTarget
  | .here name => .here name
  | .inModule segments name => .inModule (segments.map unraw) (unraw name)
  | .foreign signature => .foreign signature

/-- Where a target leads, but for what is written of a type outside of the crate. -/
def unwritten : AliasTarget → AliasTarget
  | .foreign _ => .foreign ""
  | target => target

theorem unwritten_get_d (found : Option AliasTarget) (written other : String) :
    (found.getD (.foreign written)).bare.unwritten = ((found.map bare).getD (.foreign other)).unwritten := by
  cases found <;> rfl

/-- The place of a path does not depend on marks, since the word `crate` has none. -/
theorem of_path_unraw {m : Module} (unmarked : m.Unmarked) {path : List String}
    (pieces : ∀ piece ∈ path, m.Piece piece) :
    ofPath? (path.map unraw) = (ofPath? path).map bare := by
  match path with
  | [] => rfl
  | [piece] => simp [ofPath?]
  | piece :: next :: rest =>
      have same := (pieces piece List.mem_cons_self).crate_iff unmarked
      by_cases crate : piece = "crate"
      · have word := same.mpr crate
        subst crate
        have last : (("crate" :: next :: rest).map unraw).getLast? = (("crate" :: next :: rest).getLast?).map unraw :=
          List.getLast?_map
        rw [List.map_cons, List.map_cons, word] at last ⊢
        simp only [ofPath?, last]
        cases ("crate" :: next :: rest).getLast? with
        | none => rfl
        | some name =>
            simp only [Option.map_some, bare]
            rw [List.map_dropLast, List.map_cons, List.map_cons, word]
      · have other : unraw piece ≠ "crate" := fun word => crate (same.mp word)
        simp [ofPath?, crate, other]

section

variable {m : Module}

/-- An imported path is made of identifiers and of the segments of its module. -/
theorem pieces_of_import {name : String} {imported : List String} (found : m.imports.get? name = some imported) :
    ∀ piece ∈ imported, m.Piece piece := by
  rw [Module.imports, ImportMap.get_of_items] at found
  obtain ⟨leaf, last, rfl⟩ := Option.map_eq_some_iff.mp found
  exact Module.pieces_of_absolutize (last_leaf_idents last)

variable {first : String} {rest : List String}

/-- What a path of unmarked names means does not depend on the marks in the module. -/
theorem absolute_path_of_outline (unmarked : m.Unmarked) (written : Written (first :: rest))
    (plain : (first :: rest).map unraw = first :: rest) :
    absolutePath m.outline first rest = (absolutePath m first rest).map unraw := by
  have direct : absolutize (first :: rest) m.segments = (absolutize (first :: rest) m.segments).map unraw := by
    rw [absolutize_unraw written, plain, unmarked]
  have below : rest.map unraw = rest := (List.cons.inj plain).2
  unfold absolutePath
  rw [Module.imports_of_outline unmarked]
  cases m.imports.get? first with
  | none => exact direct
  | some imported =>
      simp only [Option.map_some]
      split
      · exact direct
      · rw [List.map_append, below]

theorem pieces_of_absolute_path (written : Written (first :: rest)) :
    ∀ piece ∈ absolutePath m first rest, m.Piece piece := by
  unfold absolutePath
  cases found : m.imports.get? first with
  | none => exact Module.pieces_of_absolutize written
  | some imported =>
      simp only
      split
      · exact Module.pieces_of_absolutize written
      · intro piece member
        rcases List.mem_append.mp member with front | back
        · exact pieces_of_import found piece front
        · exact Or.inl (written piece (List.mem_cons_of_mem first back))

end

theorem names_of_outline (segments : List Segment) :
    (segments.map Segment.outline).map (fun s => unraw s.name.text) = segments.map fun s => unraw s.name.text := by
  rw [List.map_map]
  refine List.map_congr_left fun s _ => ?_
  simp only [Function.comp, Segment.name_of_outline]
  exact s.name.unraw_bare

/-- The names of segments are identifiers without marks. -/
theorem written_names {segments : List Segment} {names : List String}
    (shape : segments.map (fun s => unraw s.name.text) = names) : Written names ∧ names.map unraw = names := by
  subst shape
  constructor
  · intro piece member
    obtain ⟨s, _, rfl⟩ := List.mem_map.mp member
    exact ⟨s.name.bare, rfl⟩
  · rw [List.map_map]
    exact List.map_congr_left fun s _ => s.name.unraw_bare

/-- A target in the outline of a module leads where it leads in the module, but for marks. -/
theorem classify_outline {m : Module} (unmarked : m.Unmarked) (target : Ty) :
    (classify m target).bare.unwritten = (classify m.outline target.outline).unwritten := by
  fun_induction classify m target with
  | case1 inner ih =>
      rw [Ty.outline, classify]
      exact ih
  | case2 segments foreign empty =>
      rw [Ty.outline, classify, names_of_outline, empty]
      rfl
  | case3 segments name single typed =>
      rw [Ty.outline, classify, names_of_outline, single]
      have same : (Symbol.find? m.outline.symbols name).any (·.kind.isType) = true := by
        rw [m.symbols_of_outline, Symbol.find_outline, Option.any_map]
        exact typed
      simp only [same, if_true]
      rfl
  | case4 segments foreign name single untyped =>
      have same : ¬ (Symbol.find? m.outline.symbols name).any (·.kind.isType) = true := by
        rw [m.symbols_of_outline, Symbol.find_outline, Option.any_map]
        exact untyped
      have imported : (m.outline.imports.get? name).bind ofPath? = ((m.imports.get? name).bind ofPath?).map bare := by
        rw [Module.imports_of_outline unmarked]
        cases found : m.imports.get? name with
        | none => rfl
        | some imported => exact of_path_unraw unmarked (pieces_of_import found)
      have lead := unwritten_get_d ((m.imports.get? name).bind ofPath?) (Signature.ty m.imports (.path false segments))
        (Signature.ty m.outline.imports (.path false (segments.map Segment.outline)))
      rw [← imported] at lead
      rw [Ty.outline, classify, names_of_outline, single]
      simp only [if_neg same]
      exact lead
  | case5 segments foreign first rest several shape =>
      obtain ⟨written, plain⟩ := written_names shape
      have lead := unwritten_get_d (ofPath? (absolutePath m first rest)) (Signature.ty m.imports (.path false segments))
        (Signature.ty m.outline.imports (.path false (segments.map Segment.outline)))
      rw [← of_path_unraw unmarked (pieces_of_absolute_path written),
        ← absolute_path_of_outline unmarked written plain] at lead
      rw [Ty.outline, classify, names_of_outline, shape]
      cases rest with
      | nil => exact absurd rfl several
      | cons second more => exact lead
  | case6 target noParen noPath =>
      unfold Ty.outline
      split
      · exact absurd rfl (noParen _)
      · next rooted segments =>
          cases rooted with
          | true => rfl
          | false => exact absurd rfl (noPath _)
      · rfl
      · rfl

/-- What a target names, if it stays in the crate. -/
def named? : AliasTarget → Option String
  | .here name => some name
  | .inModule _ name => some name
  | .foreign _ => none

/-- All names of a target that stays in the crate, those of its module included. -/
def names : AliasTarget → List String
  | .here name => [name]
  | .inModule segments name => segments ++ [name]
  | .foreign _ => []

/-- The names that a path leads to are pieces of it. -/
theorem pieces_of_get_d {m : Module} {path : Option (List String)} {written : String}
    (pieces : ∀ whole, path = some whole → ∀ piece ∈ whole, m.Piece piece) :
    ∀ name ∈ ((path.bind ofPath?).getD (.foreign written)).names, m.Piece name := by
  intro name member
  cases path with
  | none => cases member
  | some whole =>
      rw [Option.bind_some] at member
      unfold ofPath? at member
      split at member
      · next last =>
          rcases List.mem_append.mp member with inner | own
          · exact pieces _ rfl _ (List.dropLast_subset _ inner)
          · rw [List.mem_singleton.mp own]
            exact pieces _ rfl _ (List.mem_of_getLast? last)
      · cases member

/-- The names that a target leads to are pieces of paths in the module of the target. -/
theorem pieces_of_classify (m : Module) (target : Ty) : ∀ name ∈ (classify m target).names, m.Piece name := by
  fun_induction classify m target with
  | case1 inner ih => exact ih
  | case2 | case6 => exact fun _ member => absurd member List.not_mem_nil
  | case3 segments own single typed =>
      intro name member
      rw [List.mem_singleton.mp member]
      exact Or.inl ((written_names single).1 own List.mem_cons_self)
  | case4 segments foreign own single untyped =>
      exact pieces_of_get_d fun whole found => pieces_of_import found
  | case5 segments foreign first rest several shape =>
      refine @pieces_of_get_d _ (some _) _ fun whole found => ?_
      obtain rfl := Option.some.inj found
      exact pieces_of_absolute_path (written_names shape).1

theorem piece_of_classify {m : Module} {target : Ty} {name : String}
    (named : (classify m target).named? = some name) : m.Piece name := by
  apply pieces_of_classify m target
  cases points : classify m target with
  | here own =>
      rw [points] at named
      exact List.mem_singleton.mpr (Option.some.inj named).symm
  | inModule segments own =>
      rw [points] at named
      exact List.mem_append_right _ (List.mem_singleton.mpr (Option.some.inj named).symm)
  | foreign written =>
      rw [points] at named
      cases named

end AliasTarget

end Accessors
