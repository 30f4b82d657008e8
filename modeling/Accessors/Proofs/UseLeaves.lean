import Accessors.Proofs.ModulePath
import Accessors.Scope.Imports

/-!
The imports of a module as the leaves of its `use` trees. A leaf binds one name to one path, and the trees bind
what their leaves bind from left to right, so a name means the path of the last leaf that binds it.
-/

namespace Accessors

/-- A name that a `use` tree binds, without its raw mark, with the path as it is written. -/
structure UseLeaf where
  name : String
  path : List String

namespace UseLeaf

/-- The leaf that binds a name to a path; an empty path binds nothing. -/
def binding (name : String) (path : List String) : List UseLeaf :=
  if path.isEmpty then [] else [⟨unraw name, path⟩]

end UseLeaf

mutual

/-- The leaves of a tree under a path. -/
def UseTree.leaves (path : List String) : UseTree → List UseLeaf
  | .path first tree => tree.leaves (path ++ [first.text])
  | .name own =>
      if own.text = "self" then
        match path.getLast? with
        | some last => UseLeaf.binding last path
        | none => []
      else UseLeaf.binding own.text (path ++ [own.text])
  | .rename own new =>
      if new.text = "_" then []
      else if own.text = "self" then UseLeaf.binding new.text path
      else UseLeaf.binding new.text (path ++ [own.text])
  | .glob => []
  | .group trees => UseTree.leavesOfAll path trees

def UseTree.leavesOfAll (path : List String) : List UseTree → List UseLeaf
  | [] => []
  | tree :: rest => tree.leaves path ++ UseTree.leavesOfAll path rest

end

/-- The leaves of what an item brings into scope. -/
def Item.leaves : Item → List UseLeaf
  | .use _ tree => tree.leaves []
  | _ => []

/-- The last leaf among the items that binds a name. -/
def lastLeaf? (items : List Item) (name : String) : Option UseLeaf :=
  (items.flatMap Item.leaves).reverse.find? (·.name = name)

/-! The paths of leaves are made of identifiers. -/

namespace UseLeaf

variable {path : List String} {leaf : UseLeaf}

theorem path_of_binding {name : String} (member : leaf ∈ binding name path) : leaf.path = path := by
  unfold binding at member
  split at member
  · exact absurd member List.not_mem_nil
  · rw [List.mem_singleton.mp member]

/-- A segment of the path is one of the path above the tree or an identifier of the tree. -/
def Grown (path : List String) (leaf : UseLeaf) : Prop :=
  ∀ piece ∈ leaf.path, piece ∈ path ∨ ∃ own : Ident, piece = own.text

theorem Grown.of_binding {name : String} (member : leaf ∈ binding name path) : leaf.Grown path := by
  intro piece inside
  rw [path_of_binding member] at inside
  exact Or.inl inside

theorem Grown.of_below {own : Ident} (grown : leaf.Grown (path ++ [own.text])) : leaf.Grown path := by
  intro piece inside
  rcases grown piece inside with above | new
  · rcases List.mem_append.mp above with before | last
    · exact Or.inl before
    · exact Or.inr ⟨own, List.mem_singleton.mp last⟩
  · exact Or.inr new

end UseLeaf

/-- A property of leaves under a path that holds where a leaf is bound and is carried up the path. -/
structure UseLeaf.Carried (P : List String → UseLeaf → Prop) : Prop where
  bound : ∀ {name : String} {path : List String} {leaf : UseLeaf}, leaf ∈ binding name path → P path leaf
  below : ∀ {path : List String} {own : Ident} {leaf : UseLeaf}, P (path ++ [own.text]) leaf → P path leaf

section

variable {P : List String → UseLeaf → Prop}

mutual

theorem UseTree.leaves_satisfy (carried : UseLeaf.Carried P) (path : List String) (tree : UseTree) :
    ∀ leaf ∈ tree.leaves path, P path leaf := by
  intro leaf member
  cases tree with
  | path first tree =>
      rw [UseTree.leaves] at member
      exact carried.below (UseTree.leaves_satisfy carried (path ++ [first.text]) tree leaf member)
  | name own =>
      rw [UseTree.leaves] at member
      split at member
      · cases last : path.getLast? with
        | none =>
            rw [last] at member
            exact absurd member List.not_mem_nil
        | some name =>
            rw [last] at member
            exact carried.bound member
      · exact carried.below (carried.bound member)
  | rename own new =>
      rw [UseTree.leaves] at member
      split at member
      · exact absurd member List.not_mem_nil
      · split at member
        · exact carried.bound member
        · exact carried.below (carried.bound member)
  | glob =>
      rw [UseTree.leaves] at member
      exact absurd member List.not_mem_nil
  | group trees =>
      rw [UseTree.leaves] at member
      exact UseTree.leaves_of_all_satisfy carried path trees leaf member

theorem UseTree.leaves_of_all_satisfy (carried : UseLeaf.Carried P) (path : List String) (trees : List UseTree) :
    ∀ leaf ∈ UseTree.leavesOfAll path trees, P path leaf := by
  intro leaf member
  cases trees with
  | nil =>
      rw [UseTree.leavesOfAll] at member
      exact absurd member List.not_mem_nil
  | cons tree rest =>
      rw [UseTree.leavesOfAll] at member
      rcases List.mem_append.mp member with first | later
      · exact UseTree.leaves_satisfy carried path tree leaf first
      · exact UseTree.leaves_of_all_satisfy carried path rest leaf later

end

/-- The same of the leaf that a name means among some items. -/
theorem last_leaf_satisfies (carried : UseLeaf.Carried P) {items : List Item} {name : String} {leaf : UseLeaf}
    (last : lastLeaf? items name = some leaf) : P [] leaf := by
  have listed := List.mem_reverse.mp (List.mem_of_find?_eq_some last)
  obtain ⟨item, _, member⟩ := List.mem_flatMap.mp listed
  cases item with
  | use rooted tree => exact tree.leaves_satisfy carried [] leaf member
  | _ => exact absurd member List.not_mem_nil

end

/-- The path of a leaf of some items is written in identifiers. -/
theorem last_leaf_idents {items : List Item} {name : String} {leaf : UseLeaf}
    (last : lastLeaf? items name = some leaf) : ∀ piece ∈ leaf.path, ∃ own : Ident, piece = own.text := by
  intro piece inside
  have grown : leaf.Grown [] := last_leaf_satisfies ⟨UseLeaf.Grown.of_binding, UseLeaf.Grown.of_below⟩ last
  rcases grown piece inside with above | own
  · exact absurd above List.not_mem_nil
  · exact own

theorem last_leaf_path_ne_nil {items : List Item} {name : String} {leaf : UseLeaf}
    (last : lastLeaf? items name = some leaf) : leaf.path ≠ [] := by
  have filled : UseLeaf.Carried fun _ leaf => leaf.path ≠ [] := by
    refine ⟨fun {name path leaf} member empty => ?_, fun same => same⟩
    rw [UseLeaf.path_of_binding member] at empty
    rw [empty] at member
    exact absurd member List.not_mem_nil
  exact last_leaf_satisfies filled last

namespace ImportMap

/-- Binds what a leaf binds. -/
def addLeaf (module : List String) (map : ImportMap) (leaf : UseLeaf) : ImportMap :=
  ⟨bind leaf.name (absolutize leaf.path module) map.bindings⟩

theorem insert_by_leaf (module : List String) (map : ImportMap) (name : String) (path : List String) :
    map.insert module name path = (UseLeaf.binding name path).foldl (addLeaf module) map := by
  unfold insert UseLeaf.binding
  split <;> rfl

mutual

theorem add_tree_by_leaves (module path : List String) (map : ImportMap) (tree : UseTree) :
    addTree module path map tree = (tree.leaves path).foldl (addLeaf module) map := by
  cases tree with
  | path name tree =>
      rw [addTree, UseTree.leaves]
      exact add_tree_by_leaves module (path ++ [name.text]) map tree
  | name name =>
      rw [addTree, UseTree.leaves]
      split
      · cases path.getLast? with
        | none => rfl
        | some last => exact insert_by_leaf module map last path
      · exact insert_by_leaf module map name.text (path ++ [name.text])
  | rename name newName =>
      rw [addTree, UseTree.leaves]
      split
      · rfl
      · split
        · exact insert_by_leaf module map newName.text path
        · exact insert_by_leaf module map newName.text (path ++ [name.text])
  | glob => rw [addTree, UseTree.leaves, List.foldl_nil]
  | group trees =>
      rw [addTree, UseTree.leaves]
      exact add_trees_by_leaves module path map trees

theorem add_trees_by_leaves (module path : List String) (map : ImportMap) (trees : List UseTree) :
    addTrees module path map trees = (UseTree.leavesOfAll path trees).foldl (addLeaf module) map := by
  cases trees with
  | nil => rw [addTrees, UseTree.leavesOfAll, List.foldl_nil]
  | cons tree rest =>
      rw [addTrees, UseTree.leavesOfAll, List.foldl_append, ← add_tree_by_leaves module path map tree]
      exact add_trees_by_leaves module path (addTree module path map tree) rest

end

/-- The imports of a module are bound by the leaves of its items, one after the other. -/
theorem of_items_by_leaves (items : List Item) (module : List String) :
    ofItems items module = (items.flatMap Item.leaves).foldl (addLeaf module) empty := by
  have item (map : ImportMap) (item : Item) :
      addItem module map item = item.leaves.foldl (addLeaf module) map := by
    cases item with
    | use rooted tree => exact add_tree_by_leaves module [] map tree
    | _ => rfl
  rw [ofItems, List.foldl_flatMap]
  exact congrArg (items.foldl · empty) (funext fun map => funext (item map))

theorem get_of_leaf (module : List String) (map : ImportMap) (leaf : UseLeaf) (name : String) :
    (addLeaf module map leaf).get? name
      = if leaf.name = name then some (absolutize leaf.path module) else map.get? name := by
  rw [get?, addLeaf, lookup_bind]
  simp only [eq_comm (a := name)]
  rfl

/-- A name means what the last leaf that binds it binds it to. -/
theorem get_of_leaves (module : List String) (map : ImportMap) (leaves : List UseLeaf) (name : String) :
    (leaves.foldl (addLeaf module) map).get? name
      = ((leaves.reverse.find? (·.name = name)).map fun leaf => absolutize leaf.path module).or
          (map.get? name) := by
  induction leaves generalizing map with
  | nil => rfl
  | cons leaf rest ih =>
      rw [List.foldl_cons, ih, get_of_leaf, List.reverse_cons, List.find?_append]
      cases rest.reverse.find? (·.name = name) with
      | some later => rfl
      | none =>
          by_cases same : leaf.name = name
          · simp [same]
          · simp [same]

theorem get_of_items (items : List Item) (module : List String) (name : String) :
    (ofItems items module).get? name
      = (lastLeaf? items name).map fun leaf => absolutize leaf.path module := by
  rw [of_items_by_leaves, get_of_leaves, lastLeaf?]
  exact Option.or_none

end ImportMap

end Accessors
