import Accessors.Proofs.ItemPaths
import Accessors.Proofs.TypeNamespace

/-!
When the path that is kept for an import is absolute: it has no `self` and no `super`, and begins with `crate` or with a
name that neither a declared module nor another `use` declaration has. Only the words that lead a path are replaced, and
of `self` and `super` only the one that comes first; names are never looked up. So a path is kept as it should be
unless it climbs from `self`, or goes through a module or an import of the module it stands in.
-/

namespace Accessors

/-- The path has the words `self` and `super` only at its front, `self` only first. -/
def LegalUse (path : List String) : Prop :=
  ∃ ups rest, (path = List.replicate ups "super" ++ rest ∨ path = "self" :: (List.replicate ups "super" ++ rest))
    ∧ ∀ piece ∈ rest, piece ≠ "self" ∧ piece ≠ "super"

/-- Neither a module that the items declare nor what the other items bind has the name. -/
structure NamesCrate (items others : List Item) (first : String) : Prop where
  undeclared : ∀ item ∈ items, ¬ item.Declares first .module
  unbound : ∀ item ∈ others, ∀ leaf ∈ item.leaves, leaf.name ≠ unraw first

/-- The path has no words for modules around, and begins with `crate` or the name of a crate. -/
structure AbsolutePath (items others : List Item) (path : List String) : Prop where
  plain : ∀ piece ∈ path, piece ≠ "self" ∧ piece ≠ "super"
  begins : ∃ first rest, path = first :: rest ∧ (first = "crate" ∨ NamesCrate items others first)

/-- The last item that binds a name, the items besides it, and the leaf by which the name is bound. -/
structure BoundBy (items : List Item) (name : String) (own : Item) (others : List Item) (leaf : UseLeaf) : Prop where
  place : ∃ before after, items = before ++ own :: after ∧ others = before ++ after ∧ lastLeaf? after name = none
  last : lastLeaf? [own] name = some leaf

section

variable {items others : List Item} {name : String} {own : Item} {leaf : UseLeaf} {path around : List String}

theorem last_leaf_append (before after : List Item) (name : String) :
    lastLeaf? (before ++ after) name = (lastLeaf? after name).or (lastLeaf? before name) := by
  rw [lastLeaf?, List.flatMap_append, List.reverse_append, List.find?_append]
  rfl

theorem last_leaf_of_bound (bound : BoundBy items name own others leaf) : lastLeaf? items name = some leaf := by
  obtain ⟨before, after, rfl, _, later⟩ := bound.place
  have split : before ++ own :: after = before ++ ([own] ++ after) := rfl
  rw [split, last_leaf_append, last_leaf_append, later, bound.last]
  rfl

/-- A name that is bound is bound by some item last. -/
theorem bound_of_last_leaf (last : lastLeaf? items name = some leaf) : ∃ own others, BoundBy items name own others leaf := by
  induction items with
  | nil => cases last
  | cons first rest ih =>
      have split : first :: rest = [first] ++ rest := rfl
      rw [split, last_leaf_append] at last
      cases later : lastLeaf? rest name with
      | none =>
          rw [later, Option.none_or] at last
          exact ⟨first, rest, ⟨[], rest, rfl, rfl, later⟩, last⟩
      | some found =>
          rw [later, Option.some_or] at last
          obtain ⟨own, others, ⟨before, after, rfl, rfl, none⟩, bound⟩ := ih (later.trans last)
          exact ⟨own, first :: (before ++ after), ⟨first :: before, after, rfl, rfl, none⟩, bound⟩

/-- The words and names around a module that are left by a run of `super`, and what comes after it. -/
theorem absolutize_run (around : List String) (ups : Nat) {rest : List String} (plain : ∀ piece ∈ rest, piece ≠ "self" ∧ piece ≠ "super") :
    ∃ kept, kept <+: around
      ∧ absolutize (List.replicate (ups + 1) "super" ++ rest) ("crate" :: around) = "crate" :: (kept ++ rest) := by
  have ends : ∀ more, rest ≠ "super" :: more := by
    intro more same
    exact (plain "super" (by rw [same]; exact List.mem_cons_self)).2 rfl
  have left : max (("crate" :: around).length - (ups + 1)) 1 = around.length - ups - 1 + 1 := by
    rw [List.length_cons]
    omega
  refine ⟨around.take (around.length - ups - 1), List.take_prefix _ _, ?_⟩
  rw [absolutize_supers ups ends, outward_steps, left, List.take_succ_cons, List.cons_append]

/-- What is kept of a legal path has no words for modules around, unless it climbs from `self`, and begins with `crate`
if it began with a word at all. -/
theorem words_of_absolutize (legal : LegalUse path) {first : String} {rest : List String} (shape : path = first :: rest)
    (plainAround : ∀ piece ∈ around, piece ≠ "self" ∧ piece ≠ "super") :
    ((∀ piece ∈ absolutize path ("crate" :: around), piece ≠ "self" ∧ piece ≠ "super")
        ↔ ∀ more, path ≠ "self" :: "super" :: more)
      ∧ ∃ more, absolutize path ("crate" :: around) = (if first ∈ pathWords then "crate" else first) :: more := by
  obtain ⟨ups, below, climbs, plain⟩ := legal
  have crate : "crate" ≠ "self" ∧ "crate" ≠ "super" := by decide
  have words : "self" ∈ pathWords ∧ "super" ∈ pathWords := by decide
  rcases climbs with same | same
  · cases ups with
    | zero =>
        obtain rfl : path = below := same
        have straight := plain first (by simp [shape])
        have other : first ∈ pathWords → first = "crate" := by
          intro listed
          simpa [pathWords, straight] using listed
        rw [shape, absolutize_straight straight.1 straight.2, ← shape]
        refine ⟨iff_of_true plain fun more climbs => ?_, rest, ?_⟩
        · exact straight.1 (List.cons.inj (shape.symm.trans climbs)).1
        · split
          · next listed => rw [shape, other listed]
          · exact shape
    | succ ups =>
        obtain ⟨kept, front, absolute⟩ := absolutize_run around ups plain
        have first' : first = "super" := (List.cons.inj (shape.symm.trans same)).1
        rw [same, absolute, first', if_pos words.2]
        refine ⟨iff_of_true (fun piece member => ?_) fun more climbs => ?_, _, rfl⟩
        · rcases List.mem_cons.mp member with rfl | member
          · exact crate
          · rcases List.mem_append.mp member with above | member
            · exact plainAround piece (front.subset above)
            · exact plain piece member
        · exact absurd (List.cons.inj climbs).1 (by decide)
  · have first' : first = "self" := (List.cons.inj (shape.symm.trans same)).1
    rw [same, absolutize_self, first', if_pos words.1]
    refine ⟨?_, _, rfl⟩
    cases ups with
    | zero =>
        have below' : List.replicate 0 "super" ++ below = below := rfl
        rw [below']
        refine iff_of_true (fun piece member => ?_) fun more climbs => ?_
        · rcases List.mem_append.mp member with above | member
          · rcases List.mem_cons.mp above with rfl | above
            · exact crate
            · exact plainAround piece above
          · exact plain piece member
        · exact (plain "super" (by simp [(List.cons.inj climbs).2])).2 rfl
    | succ ups =>
        refine iff_of_false (fun all => (all "super" ?_).2 rfl) fun direct => direct _ rfl
        simp [List.replicate_succ]

/-- Every entry of the imports is the path of the last leaf that binds the name. It is absolute exactly if that path does
not climb from `self`, and begins with the name of a crate or with a word. -/
theorem import_absolute_iff (items : List Item) (around : List String)
    (plainAround : ∀ piece ∈ around, piece ≠ "self" ∧ piece ≠ "super")
    (legal : ∀ item ∈ items, ∀ leaf ∈ item.leaves, LegalUse leaf.path) :
    (∀ name path, (ImportMap.ofItems items ("crate" :: around)).get? name = some path ↔
        ∃ own others leaf, BoundBy items name own others leaf ∧ path = absolutize leaf.path ("crate" :: around))
      ∧ ∀ name own others leaf, BoundBy items name own others leaf →
        (AbsolutePath items others (absolutize leaf.path ("crate" :: around))
          ↔ (∀ rest, leaf.path ≠ "self" :: "super" :: rest)
            ∧ ∀ first rest, leaf.path = first :: rest → first ∉ pathWords → NamesCrate items others first) := by
  refine ⟨fun name path => ?_, fun name own others leaf bound => ?_⟩
  · rw [ImportMap.get_of_items, Option.map_eq_some_iff]
    constructor
    · rintro ⟨leaf, last, rfl⟩
      obtain ⟨own, others, bound⟩ := bound_of_last_leaf last
      exact ⟨own, others, leaf, bound, rfl⟩
    · rintro ⟨own, others, leaf, bound, rfl⟩
      exact ⟨leaf, last_leaf_of_bound bound, rfl⟩
  · have last := last_leaf_of_bound bound
    obtain ⟨item, member, inside⟩ := List.mem_flatMap.mp (List.mem_reverse.mp (List.mem_of_find?_eq_some last))
    obtain ⟨first, rest, shape⟩ := List.exists_cons_of_ne_nil (last_leaf_path_ne_nil last)
    obtain ⟨words, more, begins⟩ := words_of_absolutize (legal item member leaf inside) shape plainAround
    constructor
    · rintro ⟨plain, head, tail, here, names⟩
      refine ⟨words.mp plain, fun other tail' same outside => ?_⟩
      obtain ⟨rfl, _⟩ := List.cons.inj (shape.symm.trans same)
      rw [if_neg outside] at begins
      obtain ⟨rfl, _⟩ := List.cons.inj (begins.symm.trans here)
      refine names.resolve_left ?_
      rintro rfl
      exact outside (by decide)
    · rintro ⟨direct, names⟩
      refine ⟨words.mpr direct, _, more, begins, ?_⟩
      split
      · exact Or.inl rfl
      · next outside => exact Or.inr (names first rest shape outside)

end

namespace AbsoluteSample

theorem self_whole : "self".toList ≠ [] ∧ Lexer.identLength "self".toList = "self".toList.length := by decide +kernel

theorem super_whole : "super".toList ≠ [] ∧ Lexer.identLength "super".toList = "super".toList.length := by
  decide +kernel

def self : Ident := ⟨"self", self_whole⟩

def super : Ident := ⟨"super", super_whole⟩

def inner : Ident := SpellingSample.inner

def name : Ident := ⟨"D", by decide +kernel⟩

/-- An import from the module around. -/
def above : List Item := [.use false (.path super (.name name))]

/-- The same import by a path from `self`. -/
def climbing : List Item := [.use false (.path self (.path super (.name name)))]

/-- An import through a module that is declared beside it. -/
def through : List Item := [.module inner none (some []), .use false (.path inner (.name name))]

def leafOf (path : List String) : UseLeaf := ⟨"D", path⟩

theorem plain_around : ∀ piece ∈ ["m"], piece ≠ "self" ∧ piece ≠ "super" := by decide

theorem leaves_of_above : above.flatMap Item.leaves = [leafOf ["super", "D"]] := by rfl

theorem leaves_of_climbing : climbing.flatMap Item.leaves = [leafOf ["self", "super", "D"]] := by rfl

theorem leaves_of_through : through.flatMap Item.leaves = [leafOf ["inner", "D"]] := by rfl

theorem legal_of_leaves {items : List Item} {path : List String} (leaves : items.flatMap Item.leaves = [leafOf path])
    (legal : LegalUse path) : ∀ item ∈ items, ∀ leaf ∈ item.leaves, LegalUse leaf.path := by
  intro item member leaf inside
  have listed : leaf ∈ items.flatMap Item.leaves := List.mem_flatMap.mpr ⟨item, member, inside⟩
  rw [leaves, List.mem_singleton] at listed
  rw [listed]
  exact legal

theorem legal_above : LegalUse ["super", "D"] := ⟨1, ["D"], Or.inl rfl, by decide⟩

theorem legal_climbing : LegalUse ["self", "super", "D"] := ⟨1, ["D"], Or.inr rfl, by decide⟩

theorem legal_through : LegalUse ["inner", "D"] := ⟨0, ["inner", "D"], Or.inl rfl, by decide⟩

theorem bound_above : BoundBy above "D" (.use false (.path super (.name name))) [] (leafOf ["super", "D"]) :=
  ⟨⟨[], [], rfl, rfl, rfl⟩, rfl⟩

end AbsoluteSample

open AbsoluteSample in
theorem import_of_sample_absolute :
    (∀ item ∈ above, ∀ leaf ∈ item.leaves, LegalUse leaf.path)
      ∧ (ImportMap.ofItems above ["crate", "m"]).get? "D" = some ["crate", "D"]
      ∧ AbsolutePath above [] ["crate", "D"] := by
  have legal := legal_of_leaves leaves_of_above legal_above
  obtain ⟨entries, absolute⟩ := import_absolute_iff above ["m"] plain_around legal
  refine ⟨legal, (entries "D" _).mpr ⟨_, _, _, bound_above, rfl⟩, ?_⟩
  refine (absolute "D" _ _ _ bound_above).mpr ⟨fun rest climbs => ?_, fun first rest shape outside => ?_⟩
  · exact absurd (List.cons.inj climbs).1 (by decide)
  · obtain ⟨rfl, _⟩ := List.cons.inj shape
    exact absurd (by decide) outside

open AbsoluteSample in
/-- A climb from `self` leaves a `super` in the path, and a path through a declared module stays as it is. -/
theorem imports_of_samples_not_absolute :
    (∀ item ∈ climbing, ∀ leaf ∈ item.leaves, LegalUse leaf.path)
      ∧ (ImportMap.ofItems climbing ["crate", "m"]).get? "D" = some ["crate", "m", "super", "D"]
      ∧ (∀ others, ¬ AbsolutePath climbing others ["crate", "m", "super", "D"])
      ∧ (∀ item ∈ through, ∀ leaf ∈ item.leaves, LegalUse leaf.path)
      ∧ (ImportMap.ofItems through ["crate", "m"]).get? "D" = some ["inner", "D"]
      ∧ ∀ others, ¬ AbsolutePath through others ["inner", "D"] := by
  refine ⟨legal_of_leaves leaves_of_climbing legal_climbing, rfl, fun others absolute => ?_,
    legal_of_leaves leaves_of_through legal_through, rfl, fun others absolute => ?_⟩
  · exact (absolute.plain "super" (by simp)).2 rfl
  · obtain ⟨first, rest, shape, begins⟩ := absolute.begins
    obtain ⟨rfl, _⟩ := List.cons.inj shape
    refine (begins.resolve_left (by decide)).undeclared _ List.mem_cons_self ⟨inner, rfl, rfl⟩

end Accessors
