import Accessors.Proofs.UseLeaves
import Mathlib.Data.List.Basic

/-!
`use` declarations without groups. A `use` tree stands for several declarations of one leaf each, which are found by
expanding its groups from left to right. The imports of a module are the same if they are written that way, and then
each declaration binds at most one name, so that a name means the path of the last declaration that binds it.
-/

namespace Accessors

/-- What a path of a `use` declaration ends in. -/
inductive UseEnd where
  | name (own : Ident)
  | rename (own : Ident) (new : Ident)
  | glob

def UseEnd.tree : UseEnd → UseTree
  | .name own => .name own
  | .rename own new => .rename own new
  | .glob => .glob

/-- A `use` declaration without groups: the names above its end, and the end. -/
structure SingleUse where
  rooted : Bool
  above : List Ident
  last : UseEnd

namespace SingleUse

def item (s : SingleUse) : Item := .use s.rooted (s.above.foldr .path s.last.tree)

/-- The path above the end, as it is written. -/
def path (s : SingleUse) : List String := s.above.map Ident.text

/-- The name that a declaration binds, without its raw mark, and the path that it binds it to. A glob binds nothing,
and neither does a rename to `_` or `self` under an empty path. -/
inductive Binds (s : SingleUse) : String → List String → Prop where
  | name {own : Ident} (last : s.last = .name own) (other : own.text ≠ "self") :
      Binds s (unraw own.text) (s.path ++ [own.text])
  /-- The word `self` stands for the path above it. -/
  | self {own upper : Ident} (last : s.last = .name own) (word : own.text = "self")
      (under : s.above.getLast? = some upper) : Binds s (unraw upper.text) s.path
  | rename {own new : Ident} (last : s.last = .rename own new) (other : own.text ≠ "self") (shown : new.text ≠ "_") :
      Binds s (unraw new.text) (s.path ++ [own.text])
  | renameSelf {own new : Ident} (last : s.last = .rename own new) (word : own.text = "self")
      (under : s.above ≠ []) (shown : new.text ≠ "_") : Binds s (unraw new.text) s.path

end SingleUse

mutual

/-- The declarations of one leaf that a tree under some names stands for. -/
def UseTree.singles (rooted : Bool) (above : List Ident) : UseTree → List SingleUse
  | .path first tree => tree.singles rooted (above ++ [first])
  | .name own => [⟨rooted, above, .name own⟩]
  | .rename own new => [⟨rooted, above, .rename own new⟩]
  | .glob => [⟨rooted, above, .glob⟩]
  | .group trees => UseTree.singlesOfAll rooted above trees

def UseTree.singlesOfAll (rooted : Bool) (above : List Ident) : List UseTree → List SingleUse
  | [] => []
  | tree :: rest => tree.singles rooted above ++ UseTree.singlesOfAll rooted above rest

end

/-- The declarations of one leaf that an item stands for. -/
def Item.singles : Item → List SingleUse
  | .use rooted tree => tree.singles rooted []
  | _ => []

/-- The items that are written in the place of an item: its declarations of one leaf, or the item itself. -/
def Item.flattened : Item → List Item
  | .use rooted tree => (tree.singles rooted []).map SingleUse.item
  | item => [item]

namespace SingleUse

variable {s : SingleUse} {name : String} {written : List String}

theorem path_ne_nil_iff : s.path ≠ [] ↔ s.above ≠ [] := by simp [path]

theorem last_of_path : s.path.getLast? = s.above.getLast?.map Ident.text := List.getLast?_map

/-- The leaf of a declaration, if it binds a name. -/
def leaf? (s : SingleUse) : Option UseLeaf := (s.last.tree.leaves s.path).head?

theorem binding_of_ne_nil (name : String) (some : written ≠ []) :
    UseLeaf.binding name written = [⟨unraw name, written⟩] := by
  simp [UseLeaf.binding, some]

/-- An end has one leaf at most. -/
theorem leaves_of_end (s : SingleUse) : s.last.tree.leaves s.path = s.leaf?.toList := by
  have single (name : String) (written : List String) :
      UseLeaf.binding name written = (UseLeaf.binding name written).head?.toList := by
    unfold UseLeaf.binding
    split <;> rfl
  unfold leaf?
  cases s.last with
  | name own =>
      simp only [UseEnd.tree, UseTree.leaves]
      split
      · cases s.path.getLast? with
        | none => rfl
        | some last => exact single last s.path
      · exact single _ _
  | rename own new =>
      simp only [UseEnd.tree, UseTree.leaves]
      split
      · rfl
      · split
        · exact single _ _
        · exact single _ _
  | glob => simp [UseEnd.tree, UseTree.leaves]

/-- What a declaration binds is its leaf. -/
theorem leaf_of_binds (binds : s.Binds name written) : s.leaf? = some ⟨name, written⟩ := by
  unfold leaf?
  cases binds with
  | name last other => simp [last, UseEnd.tree, UseTree.leaves, other, binding_of_ne_nil]
  | self last word under =>
      have filled : s.path ≠ [] := path_ne_nil_iff.mpr fun empty => by simp [empty] at under
      simp [last, UseEnd.tree, UseTree.leaves, word, last_of_path, under, binding_of_ne_nil _ filled]
  | rename last other shown => simp [last, UseEnd.tree, UseTree.leaves, other, shown, binding_of_ne_nil]
  | renameSelf last word under shown =>
      have filled : s.path ≠ [] := path_ne_nil_iff.mpr under
      simp [last, UseEnd.tree, UseTree.leaves, word, shown, binding_of_ne_nil _ filled]

/-- A declaration binds its leaf. -/
theorem binds_of_leaf (found : s.leaf? = some ⟨name, written⟩) : s.Binds name written := by
  unfold leaf? at found
  cases last : s.last with
  | name own =>
      rw [last, UseEnd.tree, UseTree.leaves, last_of_path] at found
      by_cases word : own.text = "self"
      · rw [if_pos word] at found
        cases under : s.above.getLast? with
        | none => simp [under] at found
        | some upper =>
            have filled : s.path ≠ [] := path_ne_nil_iff.mpr fun empty => by simp [empty] at under
            simp only [under, Option.map_some, binding_of_ne_nil _ filled] at found
            cases found
            exact .self last word under
      · rw [if_neg word, binding_of_ne_nil _ (by simp)] at found
        cases found
        exact .name last word
  | rename own new =>
      rw [last, UseEnd.tree, UseTree.leaves] at found
      by_cases hidden : new.text = "_"
      · simp [hidden] at found
      by_cases word : own.text = "self"
      · by_cases under : s.above = []
        · have empty : s.path = [] := by rw [path, under, List.map_nil]
          simp [hidden, word, empty, UseLeaf.binding] at found
        · rw [if_neg hidden, if_pos word, binding_of_ne_nil _ (path_ne_nil_iff.mpr under)] at found
          cases found
          exact .renameSelf last word under hidden
      · rw [if_neg hidden, if_neg word, binding_of_ne_nil _ (by simp)] at found
        cases found
        exact .rename last word hidden
  | glob => simp [last, UseEnd.tree, UseTree.leaves] at found

theorem leaf_eq_some_iff : s.leaf? = some ⟨name, written⟩ ↔ s.Binds name written :=
  ⟨binds_of_leaf, leaf_of_binds⟩

/-- The names above an end are the path that it stands under. -/
theorem leaves_of_above (above : List Ident) (path : List String) (tree : UseTree) :
    (above.foldr UseTree.path tree).leaves path = tree.leaves (path ++ above.map Ident.text) := by
  induction above generalizing path with
  | nil => simp
  | cons first rest ih =>
      rw [List.foldr_cons, UseTree.leaves, ih, List.map_cons, List.append_assoc, List.singleton_append]

theorem leaves_of_item (s : SingleUse) : s.item.leaves = s.leaf?.toList := by
  rw [item, Item.leaves, leaves_of_above, List.nil_append, ← leaves_of_end]
  rfl

end SingleUse

mutual

/-- The leaves of a tree are those of the declarations that it stands for. -/
theorem UseTree.leaves_of_singles (rooted : Bool) (above : List Ident) (tree : UseTree) :
    tree.leaves (above.map Ident.text) = (tree.singles rooted above).filterMap SingleUse.leaf? := by
  have single (last : UseEnd) : last.tree.leaves (above.map Ident.text)
      = [(⟨rooted, above, last⟩ : SingleUse)].filterMap SingleUse.leaf? := by
    rw [List.filterMap_cons, List.filterMap_nil]
    have only := SingleUse.leaves_of_end ⟨rooted, above, last⟩
    simp only [SingleUse.path] at only
    rw [only]
    cases SingleUse.leaf? ⟨rooted, above, last⟩ <;> rfl
  cases tree with
  | path first tree =>
      have below := UseTree.leaves_of_singles rooted (above ++ [first]) tree
      rw [List.map_append, List.map_singleton] at below
      rw [UseTree.leaves, UseTree.singles]
      exact below
  | name own =>
      rw [UseTree.singles]
      exact single (.name own)
  | rename own new =>
      rw [UseTree.singles]
      exact single (.rename own new)
  | glob =>
      rw [UseTree.singles]
      exact single .glob
  | group trees =>
      rw [UseTree.leaves, UseTree.singles]
      exact UseTree.leaves_of_all_of_singles rooted above trees

theorem UseTree.leaves_of_all_of_singles (rooted : Bool) (above : List Ident) (trees : List UseTree) :
    UseTree.leavesOfAll (above.map Ident.text) trees
      = (UseTree.singlesOfAll rooted above trees).filterMap SingleUse.leaf? := by
  cases trees with
  | nil => rw [UseTree.leavesOfAll, UseTree.singlesOfAll, List.filterMap_nil]
  | cons tree rest =>
      rw [UseTree.leavesOfAll, UseTree.singlesOfAll, List.filterMap_append,
        UseTree.leaves_of_singles rooted above tree, UseTree.leaves_of_all_of_singles rooted above rest]

end

theorem Item.leaves_of_singles (item : Item) : item.leaves = item.singles.filterMap SingleUse.leaf? := by
  cases item with
  | use rooted tree => exact tree.leaves_of_singles rooted []
  | _ => rfl

/-- Writing the declarations of one leaf in the place of an item keeps the leaves. -/
theorem Item.leaves_of_flattened (item : Item) : item.flattened.flatMap Item.leaves = item.leaves := by
  cases item with
  | use rooted tree =>
      have each (s : SingleUse) : s.item.leaves = s.leaf?.toList := s.leaves_of_item
      have lists : (fun s : SingleUse => s.leaf?.toList) = fun s => s.item.leaves := funext fun s => (each s).symm
      rw [Item.leaves_of_singles, Item.flattened, List.flatMap_map, ← lists, Item.singles,
        List.filterMap_eq_flatMap_toList]
  | _ => simp [Item.flattened]

/-- The leaf that a name means is what the last declaration binds that binds the name. -/
theorem last_leaf_iff (items : List Item) (name : String) (written : List String) :
    (∃ leaf, lastLeaf? items name = some leaf ∧ leaf.path = written)
      ↔ ∃ before s after, items.flatMap Item.singles = before ++ s :: after ∧ s.Binds name written
          ∧ ∀ later ∈ after, ∀ other, ¬ later.Binds name other := by
  have listed : lastLeaf? items name
      = ((items.flatMap Item.singles).reverse.find? fun s => s.leaf?.any (·.name = name)).bind SingleUse.leaf? := by
    have leaves : items.flatMap Item.leaves = (items.flatMap Item.singles).filterMap SingleUse.leaf? := by
      rw [List.filterMap_flatMap]
      exact congrArg (items.flatMap ·) (funext Item.leaves_of_singles)
    rw [lastLeaf?, leaves, ← List.filterMap_reverse, List.find?_filterMap]
  have names (s : SingleUse) : s.leaf?.any (·.name = name) = true ↔ ∃ other, s.Binds name other := by
    cases leaf : s.leaf? with
    | none => simp [← SingleUse.leaf_eq_some_iff, leaf]
    | some leaf' =>
        obtain ⟨own, path⟩ := leaf'
        simp [← SingleUse.leaf_eq_some_iff, leaf]
  rw [listed]
  constructor
  · rintro ⟨leaf, found, rfl⟩
    obtain ⟨s, first, own⟩ := Option.bind_eq_some_iff.mp found
    obtain ⟨binds, after, before, split, others⟩ := List.find?_eq_some_iff_append.mp first
    have called : leaf.name = name := by simpa [own] using binds
    refine ⟨before.reverse, s, after.reverse, ?_, ?_, ?_⟩
    · have back := congrArg List.reverse split
      simpa using back
    · rw [← called]
      exact SingleUse.binds_of_leaf own
    · intro later member other bound
      have none := others later (List.mem_reverse.mp member)
      simp [(names later).mpr ⟨other, bound⟩] at none
  · rintro ⟨before, s, after, split, binds, last⟩
    refine ⟨⟨name, written⟩, Option.bind_eq_some_iff.mpr ⟨s, ?_, SingleUse.leaf_of_binds binds⟩, rfl⟩
    refine List.find?_eq_some_iff_append.mpr ⟨(names s).mpr ⟨written, binds⟩, after.reverse, before.reverse, ?_, ?_⟩
    · simp [split]
    · intro later member
      have none : ¬ later.leaf?.any (·.name = name) = true := by
        intro some
        obtain ⟨other, bound⟩ := (names later).mp some
        exact last later (List.mem_reverse.mp member) other bound
      simpa using none

namespace ImportMap

/-- The imports of a module are those of its `use` declarations written with one leaf each, groups expanded from left
to right. A name means the absolute path of the last of these declarations that binds it. -/
theorem imports_of_single_uses (items : List Item) (module : List String) :
    ofItems items module = ofItems (items.flatMap Item.flattened) module
      ∧ (∀ rooted tree, .use rooted tree ∈ items.flatMap Item.flattened → ∃ s : SingleUse, s.item = .use rooted tree)
      ∧ ∀ name path, (ofItems items module).get? name = some path
          ↔ ∃ before s after written, items.flatMap Item.singles = before ++ s :: after ∧ s.Binds name written
              ∧ path = absolutize written module ∧ ∀ later ∈ after, ∀ other, ¬ later.Binds name other := by
  refine ⟨?_, ?_, ?_⟩
  · have leaves : (items.flatMap Item.flattened).flatMap Item.leaves = items.flatMap Item.leaves := by
      rw [List.flatMap_assoc]
      exact congrArg (items.flatMap ·) (funext Item.leaves_of_flattened)
    rw [of_items_by_leaves, of_items_by_leaves, leaves]
  · intro rooted tree member
    obtain ⟨item, _, written⟩ := List.mem_flatMap.mp member
    cases item with
    | use own whole =>
        obtain ⟨s, _, same⟩ := List.mem_map.mp written
        exact ⟨s, same⟩
    | _ => exact absurd (List.mem_singleton.mp written) (by simp)
  · intro name path
    rw [get_of_items, Option.map_eq_some_iff]
    constructor
    · rintro ⟨leaf, found, rfl⟩
      obtain ⟨before, s, after, split, binds, last⟩ := (last_leaf_iff items name leaf.path).mp ⟨leaf, found, rfl⟩
      exact ⟨before, s, after, leaf.path, split, binds, rfl, last⟩
    · rintro ⟨before, s, after, written, split, binds, rfl, last⟩
      obtain ⟨leaf, found, rfl⟩ := (last_leaf_iff items name written).mpr ⟨before, s, after, split, binds, last⟩
      exact ⟨leaf, found, rfl⟩

end ImportMap

end Accessors
