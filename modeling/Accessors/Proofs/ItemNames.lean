import Accessors.Proofs.ModulePath
import Accessors.Proofs.ParsedText
import Accessors.Proofs.TypeGrammar

/-!
The names of declared structs and modules. A struct is never read with a reserved word for its name, whatever module its
declaration stands in, so none that is found in a loaded module has one. A module may only have `try`, so the words that
begin a path in the crate lead to no module.
-/

namespace Accessors

/-- Whether structs may stand in an item, or it is one. -/
def Item.holdsStructs : Item → Bool
  | .struct _ | .module _ _ _ => true
  | _ => false

/-- A name that a module may have. -/
def Ident.NamesModule (name : Ident) : Prop := name.Free ∨ name.text = "try"

/-- The item declares no struct or module of a reserved name, and neither does a module in it. -/
inductive Item.Named : Item → Prop where
  | struct {decl : StructDecl} : decl.name.Free → Named (.struct decl)
  | module {name : Ident} {file : Option String} {body : Option (List Item)} :
      name.NamesModule → (∀ items, body = some items → ∀ item ∈ items, Named item) → Named (.module name file body)
  | plain {item : Item} : item.holdsStructs = false → Named item

namespace Parsing

variable {r : Rules} {c : Cursor}

/-- What the rules at hand read as items. -/
def NamedItems (r : Rules) : Prop := ∀ {c}, Yields (nested .item) r c fun item _ => item.Named

theorem yields_struct_item : Yields structItem r c fun decl _ => decl.name.Free := by
  refine Yields.step fun _ _ => Yields.bind Yields.ident fun name _ named => ?_
  exact Yields.step fun _ _ => Yields.step fun _ _ => Yields.pure named.1

theorem yields_module_item (names : NamedItems r) {file : Option String} :
    Yields (moduleItem file) r c fun item _ => item.Named := by
  have named {name : Ident} (free : name.NamesModule) {c : Cursor} : Yields (do
      if ← takeOp? [';'] then return Item.module name file none
      within .brace do
        let inner ← innerAttributes
        return Item.module name (file.or inner) (some (← plainList (nested .item)))) r c fun item _ => item.Named := by
    refine Yields.step fun empty _ => Yields.ite (fun _ => ?_) fun _ => ?_
    · exact Yields.pure (.module free fun _ none => by cases none)
    · refine Yields.within fun _ => Yields.step fun inner _ => ?_
      refine Yields.bind (Yields.listUntil fun _ => names) fun items _ each => Yields.pure (.module free ?_)
      rintro _ ⟨⟩
      exact each
  refine Yields.step fun _ _ => Yields.step fun _ c' => ?_
  refine Yields.ifAhead (fun seen => ?_) fun _ => ?_
  · refine Yields.bind Yields.anyIdent fun name _ ⟨rest, here⟩ => named (Or.inr ?_)
    rw [here] at seen
    simpa [Ahead.word] using seen
  · exact Yields.bind Yields.ident fun name _ free => named (Or.inl free.1)

theorem yields_use_item : Yields useItem r c fun item _ => item.Named := by
  refine Yields.step fun _ _ => Yields.step fun rooted _ => Yields.step fun tree _ => Yields.step fun _ _ => ?_
  cases tree with
  | none => exact Yields.pure (.plain rfl)
  | some tree => exact Yields.pure (.plain rfl)

theorem yields_static_item : Yields staticItem r c fun item _ => item.Named := by
  refine Yields.step fun _ _ => Yields.step fun _ _ => Yields.step fun name _ => Yields.step fun untyped _ => ?_
  refine Yields.ite (fun _ => ?_) fun _ => ?_
  · exact Yields.step fun _ _ => Yields.step fun _ _ => Yields.pure (.plain rfl)
  refine Yields.step fun _ _ => Yields.step fun _ _ => Yields.step fun bare _ => Yields.ite (fun _ => ?_) fun _ => ?_
  · exact Yields.pure (.plain rfl)
  · exact Yields.step fun _ _ => Yields.step fun _ _ => Yields.step fun _ _ => Yields.pure (.plain rfl)

/-- Only structs and modules are looked at, since nothing else has structs in it. -/
theorem yields_item_tail (names : NamedItems r) {file : Option String} {isPub : Bool} :
    Yields (itemTail file isPub) r c fun item _ => item.Named := by
  have rest {item : Item} {c' : Cursor} (plain : item.holdsStructs = false) :
      Yields (Pure.pure item : Parser Item) r c' fun item _ => item.Named :=
    Yields.pure (.plain plain)
  refine Yields.step fun _ _ => Yields.step fun _ _ => Yields.ite (fun _ => ?_) fun _ => ?_
  · -- a function
    refine Yields.step fun decl _ => Yields.step fun _ _ => Yields.ite (fun _ => rest rfl) fun _ => ?_
    exact Yields.step fun _ _ => rest rfl
  refine Yields.ifAhead (fun _ => ?_) fun _ => ?_
  · -- what begins with `extern`
    refine Yields.step fun _ _ => Yields.ite (fun _ => ?_) fun _ => Yields.ite (fun _ => ?_) fun _ => ?_
    · exact Yields.step fun _ _ => rest rfl
    · exact Yields.step fun _ _ => rest rfl
    · exact Yields.step fun _ _ => Yields.step fun _ _ => rest rfl
  refine Yields.ifAhead (fun _ => yields_use_item) fun _ => Yields.ifAhead (fun _ => yields_static_item) fun _ => ?_
  refine Yields.step fun _ _ => Yields.ite (fun _ => ?_) fun _ => ?_
  · -- a constant
    refine Yields.step fun found _ => ?_
    obtain ⟨name, plain⟩ := found
    cases plain with
    | true => exact rest rfl
    | false => exact rest rfl
  refine Yields.ifAhead (fun _ => ?_) fun _ => ?_
  · -- what begins with `unsafe`
    refine Yields.step fun _ _ => Yields.ite (fun _ => ?_) fun _ => Yields.ite (fun _ => ?_) fun _ => ?_
    · exact Yields.step fun _ _ => Yields.step fun _ _ => Yields.step fun _ _ => rest rfl
    · exact Yields.step fun _ _ => rest rfl
    refine Yields.ite (fun _ => ?_) fun _ => Yields.ite (fun _ => yields_module_item names) fun _ => ?_
    · exact Yields.step fun _ _ => Yields.step fun _ _ => rest rfl
    · exact Yields.step fun _ _ => Yields.fail
  refine Yields.ifAhead (fun _ => yields_module_item names) fun _ => Yields.ifAhead (fun _ => ?_) fun _ => ?_
  · -- a type
    refine Yields.step fun found _ => ?_
    obtain ⟨name, params, target⟩ := found
    cases target with
    | none => exact rest rfl
    | some target => exact rest rfl
  refine Yields.ifAhead (fun _ => ?_) fun _ => ?_
  · exact Yields.bind yields_struct_item fun decl _ free => Yields.pure (.struct free)
  refine Yields.step fun _ _ => Yields.ite (fun _ => ?_) fun _ => Yields.ifAhead (fun _ => ?_) fun _ => ?_
  · -- an enum
    exact Yields.step fun _ _ => Yields.step fun _ _ => Yields.step fun _ _ => Yields.step fun _ _ => rest rfl
  · -- a union
    refine Yields.step fun _ _ => Yields.step fun _ _ => Yields.step fun _ _ => ?_
    exact Yields.step fun _ _ => Yields.step fun _ _ => rest rfl
  refine Yields.ifAhead (fun _ => Yields.step fun _ _ => rest rfl) fun _ => Yields.ifAhead (fun _ => ?_) fun _ => ?_
  · exact Yields.step fun _ _ => Yields.step fun _ _ => rest rfl
  refine Yields.ifAhead (fun _ => Yields.step fun _ _ => rest rfl) fun _ => ?_
  refine Yields.ifAhead (fun _ => Yields.step fun _ _ => rest rfl) fun _ => ?_
  exact Yields.ifAhead (fun _ => Yields.step fun _ _ => rest rfl) fun _ => Yields.fail

theorem yields_item (names : NamedItems r) : Yields itemOf r c fun item _ => item.Named := by
  refine Yields.step fun file c' => ?_
  have tail : Yields (do itemTail file (← visibility)) r c' fun item _ => item.Named :=
    Yields.step fun _ _ => yields_item_tail names
  exact Yields.bind (Yields.asWrittenWhen tail) fun _ _ named => Yields.pure named

theorem named_items_rules (n : Nat) : NamedItems (rules n) := by
  induction n with
  | zero =>
      intro c item c' ran
      cases ran
  | succ n ih => exact fun item c' ran => yields_item ih item c' ran

/-- The items of a file. -/
theorem named_of_file {text : String} {items : List Item} (parsed : fileItems text = .ok items) :
    ∀ item ∈ items, item.Named := by
  have yields (n : Nat) (c : Cursor) : Yields (do
      let _ ← innerAttributes
      plainList (nested .item)) (rules n) c fun items _ => ∀ item ∈ items, item.Named :=
    Yields.step fun _ _ => Yields.listUntil fun _ => named_items_rules n
  exact holds_of_parse (Q := fun items => ∀ item ∈ items, item.Named) yields parsed

end Parsing

/-! The items along a walk. -/

section

variable {t : File.Tree} {layout : CrateLayout}

theorem named_of_items {file : File.Path} {items : List Item} (read : itemsOf t file = .ok items) :
    ∀ item ∈ items, item.Named := by
  obtain ⟨text, _, parsed⟩ := Outcome.bind_ok.mp read
  exact Parsing.named_of_file (Outcome.map_error_ok.mp parsed)

/-- A walk descends from items to items in one of them, or to those of a file. -/
theorem Walk.named_of_descend {w next : Walk} {segment : String} (named : ∀ item ∈ w.items, item.Named)
    (step : w.descend t segment = .ok next) : ∀ item ∈ next.items, item.Named := by
  unfold descend at step
  split at step
  · cases step
  · next file body declared =>
      obtain rfl := Except.ok.inj step
      obtain ⟨item, member, tells⟩ := List.exists_of_findSome?_eq_some declared
      unfold moduleDeclared at tells
      split at tells
      · split at tells
        · next name written inside _ =>
            obtain ⟨_, rfl⟩ := Prod.mk.inj (Option.some.inj tells)
            cases named _ member with
            | module _ each => exact each _ rfl
            | plain plain => cases plain
        · cases tells
      · cases tells
  · obtain ⟨_, _, rest⟩ := Outcome.bind_ok.mp step
    obtain ⟨items, read, rest⟩ := Outcome.bind_ok.mp rest
    obtain rfl := Outcome.pure_ok.mp rest
    exact named_of_items read

theorem Walk.named_of_fold {w last : Walk} {segments : List String} (named : ∀ item ∈ w.items, item.Named)
    (walked : segments.foldlM (Walk.descend t) w = .ok last) : ∀ item ∈ last.items, item.Named := by
  induction segments generalizing w with
  | nil =>
      obtain rfl := Outcome.pure_ok.mp walked
      exact named
  | cons segment more ih =>
      rw [List.foldlM_cons] at walked
      obtain ⟨next, step, rest⟩ := Outcome.bind_ok.mp walked
      exact ih (named_of_descend named step) rest

theorem Module.Loaded.named {m : Module} (loaded : m.Loaded t layout) : ∀ item ∈ m.items, item.Named := by
  obtain ⟨rest, found⟩ := loaded
  obtain ⟨entry, walk, opened, walked, rfl⟩ := load_segments_ok.mp found
  obtain ⟨items, read, shape⟩ := Outcome.bind_ok.mp opened
  obtain rfl := Outcome.pure_ok.mp shape
  exact Walk.named_of_fold (named_of_items read) walked

/-- A struct that is found in a loaded module has no reserved word for its name. -/
theorem Module.Finds.free {m : Module} {name : String} {decl : StructDecl} (finds : m.Finds name (.struct decl))
    (loaded : m.Loaded t layout) : decl.name.Free := by
  obtain ⟨symbol, lookup, shape⟩ := finds
  obtain ⟨item, member, made⟩ := List.mem_filterMap.mp (Symbol.find_some lookup).1
  unfold Symbol.ofItem? at made
  obtain ⟨_, _, rfl⟩ := Option.map_eq_some_iff.mp made
  simp only at shape
  rw [shape] at member
  cases loaded.named _ member with
  | struct free => exact free
  | plain plain => cases plain

end

end Accessors
