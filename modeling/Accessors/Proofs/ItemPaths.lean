import Accessors.Crate.Module
import Accessors.Proofs.OutwardPaths
import Accessors.Proofs.UseLeaves

/-!
What a path denotes in a module. A leading `::` names a crate; the words `crate`, `self` and `super` name modules of
the crate itself; another first name is that of a module that is declared or imported where the path stands, or else
of a crate. The paths of `use` declarations are read in the same way, but for the names that they bind themselves.
-/

namespace Accessors

/-- An item by the names that lead to it, in another crate or in the crate of the module. -/
structure ItemPath where
  crate : Option String
  names : List String
  deriving DecidableEq, Repr

namespace ItemPath

/-- The item of further names below. -/
def below (p : ItemPath) (rest : List String) : ItemPath := ⟨p.crate, p.names ++ rest.map unraw⟩

@[simp] theorem below_nil (p : ItemPath) : p.below [] = p := by simp [below]

@[simp] theorem below_below (p : ItemPath) (first rest : List String) :
    (p.below first).below rest = p.below (first ++ rest) := by
  simp [below]

theorem below_inj {p q : ItemPath} {rest : List String} : p.below rest = q.below rest ↔ p = q := by
  cases p
  cases q
  simp [below]

end ItemPath

/-- A name that a `use` declaration binds, and whether its path begins with `::`. -/
structure Import extends UseLeaf where
  rooted : Bool

/-- The names that an item binds. -/
def Item.imports : Item → List Import
  | .use rooted tree => (tree.leaves []).map (⟨·, rooted⟩)
  | _ => []

/-- The last of the imports of some items that binds a name. -/
def lastImport? (items : List Item) (name : String) : Option Import :=
  (items.flatMap Item.imports).reverse.find? (·.name = name)

theorem Item.leaves_of_imports (item : Item) : item.leaves = item.imports.map Import.toUseLeaf := by
  cases item <;> simp [Item.leaves, Item.imports, Function.comp_def]

theorem last_leaf_of_last_import {items : List Item} {name : String} {own : Import}
    (last : lastImport? items name = some own) : lastLeaf? items name = some own.toUseLeaf := by
  have leaves : items.flatMap Item.leaves = (items.flatMap Item.imports).map Import.toUseLeaf := by
    rw [List.map_flatMap]
    exact congrArg (items.flatMap ·) (funext Item.leaves_of_imports)
  rw [lastLeaf?, leaves, ← List.map_reverse, List.find?_map]
  exact congrArg (Option.map Import.toUseLeaf) last

/-- Which imports of a module are of modules. -/
structure ModuleImports (m : Module) where
  find? : String → Option Import
  imported : ∀ name own, find? name = some own → own ∈ m.items.flatMap Item.imports ∧ own.name = name

/-- The words that begin a path in the crate itself. -/
def pathWords : List String := ["crate", "self", "super"]

namespace Module

/-- The names of the modules around the items of a module, its own the last. -/
def around (m : Module) : List String := m.segments.drop 1

/-- How far a path climbs. -/
def ups (path : List String) : Nat := (path.takeWhile (· == "super")).length

/-- What the path of a run of `super` and further names denotes. -/
def upward (m : Module) (path : List String) : ItemPath :=
  .below ⟨none, []⟩ (m.around.take (m.around.length - ups path) ++ path.drop (ups path))

/-- Whether a module of some name is declared. -/
def DeclaresSub (m : Module) (name : String) : Prop :=
  ∃ symbol ∈ m.symbols, symbol.kind = .module ∧ symbol.name = unraw name

end Module

/-- What a path denotes in a module, where the name that one import binds is not seen. -/
inductive Denotes (m : Module) (modules : ModuleImports m) :
    Option Import → Bool → List String → ItemPath → Prop where
  /-- A leading `::` names a crate. -/
  | rooted {unseen : Option Import} {first : String} {rest : List String} :
      Denotes m modules unseen true (first :: rest) (.below ⟨some (unraw first), []⟩ rest)
  | crate {unseen : Option Import} {first : String} {rest : List String} (word : first = "crate") :
      Denotes m modules unseen false (first :: rest) (.below ⟨none, []⟩ rest)
  | self {unseen : Option Import} {first : String} {rest : List String} (word : first = "self")
      (room : Module.ups rest ≤ m.around.length) :
      Denotes m modules unseen false (first :: rest) (m.upward rest)
  | super {unseen : Option Import} {first : String} {rest : List String} (word : first = "super")
      (room : Module.ups (first :: rest) ≤ m.around.length) :
      Denotes m modules unseen false (first :: rest) (m.upward (first :: rest))
  | declared {unseen : Option Import} {first : String} {rest : List String} (plain : first ∉ pathWords)
      (declares : m.DeclaresSub first) :
      Denotes m modules unseen false (first :: rest) (.below ⟨none, []⟩ (m.around ++ first :: rest))
  /-- A module that is imported is what the path of its declaration denotes. -/
  | imported {unseen : Option Import} {first : String} {rest : List String} {own : Import} {base : ItemPath}
      (plain : first ∉ pathWords) (undeclared : ¬ m.DeclaresSub first)
      (found : modules.find? (unraw first) = some own) (seen : unseen ≠ some own)
      (leads : Denotes m modules (some own) own.rooted own.path base) :
      Denotes m modules unseen false (first :: rest) (base.below rest)
  | external {unseen : Option Import} {first : String} {rest : List String} (plain : first ∉ pathWords)
      (undeclared : ¬ m.DeclaresSub first)
      (unimported : ∀ own, modules.find? (unraw first) = some own → unseen = some own) :
      Denotes m modules unseen false (first :: rest) (.below ⟨some (unraw first), []⟩ rest)

section

variable {m : Module} {modules : ModuleImports m} {unseen : Option Import} {rooted : Bool} {first : String}
  {path rest : List String} {p q : ItemPath}

/-- A path denotes one item. -/
theorem Denotes.unique (a : Denotes m modules unseen rooted path p) (b : Denotes m modules unseen rooted path q) :
    p = q := by
  induction a generalizing q with
  | rooted =>
      cases b
      rfl
  | crate word =>
      cases b <;> simp_all [pathWords]
  | self word room =>
      cases b <;> simp_all [pathWords]
  | super word room =>
      cases b <;> simp_all [pathWords]
  | declared plain declares =>
      cases b <;> simp_all [pathWords]
  | imported plain undeclared found seen leads ih =>
      cases b with
      | imported plain' undeclared' found' seen' leads' =>
          cases found.symm.trans found'
          rw [ih leads']
      | external plain' undeclared' unimported => exact absurd (unimported _ found) seen
      | _ => simp_all [pathWords]
  | external plain undeclared unimported =>
      cases b with
      | imported plain' undeclared' found' seen' leads' => exact absurd (unimported _ found') seen'
      | _ => simp_all [pathWords]

/-- Unless it climbs, the first name of a path decides, and the others go below it. -/
theorem denotes_cons (straight : rooted = true ∨ first ≠ "self" ∧ first ≠ "super") :
    Denotes m modules unseen rooted (first :: rest) p
      ↔ ∃ base, Denotes m modules unseen rooted [first] base ∧ p = base.below rest := by
  constructor
  · intro denotes
    cases denotes with
    | rooted => exact ⟨_, .rooted, by simp⟩
    | crate word => exact ⟨_, .crate word, by simp⟩
    | self word => simp_all
    | super word => simp_all
    | declared plain declares => exact ⟨_, .declared plain declares, by simp⟩
    | imported plain undeclared found seen leads => exact ⟨_, .imported plain undeclared found seen leads, by simp⟩
    | external plain undeclared unimported => exact ⟨_, .external plain undeclared unimported, by simp⟩
  · rintro ⟨base, leads, rfl⟩
    cases leads with
    | rooted => simpa using Denotes.rooted
    | crate word => simpa using Denotes.crate word
    | self word => simp_all
    | super word => simp_all
    | declared plain declares => simpa using Denotes.declared plain declares
    | imported plain undeclared found seen leads => simpa using Denotes.imported plain undeclared found seen leads
    | external plain undeclared unimported => simpa using Denotes.external plain undeclared unimported

/-! The absolute path of an import, read where it is imported. -/

/-- A path that climbs becomes one from the crate. -/
theorem absolutize_super (located : m.segments = "crate" :: m.around) :
    absolutize ("super" :: rest) m.segments
      = "crate" :: (m.around.take (m.around.length - Module.ups ("super" :: rest))
          ++ ("super" :: rest).drop (Module.ups ("super" :: rest))) := by
  have shape (module : List String) : absolutize ("super" :: rest) module
      = module.take (max (module.length - Module.ups ("super" :: rest)) 1)
          ++ ("super" :: rest).drop (Module.ups ("super" :: rest)) := rfl
  have kept : max (m.around.length + 1 - Module.ups ("super" :: rest)) 1
      = m.around.length - Module.ups ("super" :: rest) + 1 := by omega
  rw [shape, located, List.length_cons, kept, List.take_succ_cons, List.cons_append]

theorem denotes_crate : Denotes m modules unseen false ("crate" :: rest) p ↔ p = .below ⟨none, []⟩ rest := by
  constructor
  · intro denotes
    exact denotes.unique (.crate rfl)
  · rintro rfl
    exact .crate rfl

theorem denotes_self : Denotes m modules unseen false ("self" :: rest) p
    ↔ Module.ups rest ≤ m.around.length ∧ p = m.upward rest := by
  constructor
  · intro denotes
    cases denotes <;> simp_all [pathWords]
  · rintro ⟨room, rfl⟩
    exact .self rfl room

theorem denotes_super : Denotes m modules unseen false ("super" :: rest) p
    ↔ Module.ups ("super" :: rest) ≤ m.around.length ∧ p = m.upward ("super" :: rest) := by
  constructor
  · intro denotes
    cases denotes <;> simp_all [pathWords]
  · rintro ⟨room, rfl⟩
    exact .super rfl room

/-- A path that climbs stays in the crate. -/
theorem crate_of_climbing (climbs : first = "self" ∨ first = "super")
    (denotes : Denotes m modules unseen false (first :: rest) p) : p.crate = none := by
  rcases climbs with rfl | rfl <;> cases denotes <;> simp_all [pathWords, Module.upward, ItemPath.below]

/-- A path from `self` is kept in absolute form if it does not climb. -/
theorem upward_of_self (room : Module.ups rest ≤ m.around.length) :
    m.upward rest = .below ⟨none, []⟩ (m.around ++ rest) ↔ ∀ more, rest ≠ "super" :: more := by
  constructor
  · rintro same more rfl
    have lengths := congrArg (fun p => p.names.length) same
    have up : Module.ups ("super" :: more) = Module.ups more + 1 := by simp [Module.ups]
    simp only [Module.upward, ItemPath.below, List.length_append, List.length_map, List.length_take, List.length_drop,
      List.length_cons, List.length_nil] at lengths
    omega
  · intro direct
    have level : Module.ups rest = 0 := by
      rcases rest with _ | ⟨next, more⟩
      · rfl
      · have other : next ≠ "super" := fun same => direct more (by rw [same])
        simp [Module.ups, other]
    simp [Module.upward, level]

/-- The absolute path denotes what the path denotes, if its first name leads to the same and if it does not climb
from `self`. -/
theorem absolute_denotes_iff (located : m.segments = "crate" :: m.around)
    (denotes : Denotes m modules unseen rooted path p) :
    Denotes m modules none false (absolutize path m.segments) p
      ↔ (∃ head rest base, path = head :: rest ∧ Denotes m modules unseen rooted [head] base
            ∧ Denotes m modules none false [head] base)
          ∧ ∀ rest, path ≠ "self" :: "super" :: rest := by
  obtain ⟨first, rest, rfl⟩ : ∃ first rest, path = first :: rest := by
    cases denotes <;> exact ⟨_, _, rfl⟩
  by_cases climbs : first = "self" ∨ first = "super"
  · obtain ⟨more, absolute⟩ := absolutize_climbing rest located climbs
    cases rooted with
    | true =>
        -- The mark makes the word the name of a crate, which its absolute path is not in.
        cases denotes
        constructor
        · intro here
          rw [absolute, denotes_crate] at here
          simp [ItemPath.below] at here
        · rintro ⟨⟨head, rest, base, same, leads, here⟩, _⟩
          cases same
          have inside := crate_of_climbing climbs here
          cases leads
          simp [ItemPath.below] at inside
    | false =>
        rcases climbs with rfl | rfl
        · obtain ⟨room, rfl⟩ := denotes_self.mp denotes
          rw [absolutize_self, located, List.cons_append, denotes_crate, upward_of_self room]
          have leads {unseen : Option Import} : Denotes m modules unseen false ["self"] (m.upward []) :=
            .self rfl (Nat.zero_le _)
          constructor
          · intro direct
            exact ⟨⟨"self", rest, _, rfl, leads, leads⟩, fun more same => direct more (List.cons.inj same).2⟩
          · rintro ⟨_, direct⟩ more rfl
            exact direct more rfl
        · obtain ⟨room, rfl⟩ := denotes_super.mp denotes
          rw [absolutize_super located, denotes_crate]
          have up : Module.ups ("super" :: rest) = Module.ups rest + 1 := by simp [Module.ups]
          have leads {unseen : Option Import} : Denotes m modules unseen false ["super"] (m.upward ["super"]) :=
            .super rfl (by simp [Module.ups]; omega)
          exact ⟨fun _ => ⟨⟨"super", rest, _, rfl, leads, leads⟩, by simp⟩, fun _ => rfl⟩
  · have straight : first ≠ "self" ∧ first ≠ "super" := not_or.mp climbs
    obtain ⟨base, leads, rfl⟩ := (denotes_cons (Or.inr straight)).mp denotes
    rw [absolutize_straight straight.1 straight.2, denotes_cons (Or.inr straight)]
    constructor
    · rintro ⟨base', leads', same⟩
      rw [← ItemPath.below_inj.mp same] at leads'
      refine ⟨⟨first, rest, base, rfl, leads, leads'⟩, fun more same => straight.1 (List.cons.inj same).1⟩
    · rintro ⟨⟨head, more, base', same, leads', here⟩, _⟩
      cases same
      rw [leads'.unique leads] at here
      exact ⟨base, here, rfl⟩

end

end Accessors
