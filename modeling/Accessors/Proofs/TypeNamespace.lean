import Accessors.Proofs.CorrespondingCrates
import Accessors.Proofs.RemarkedCrates

/-!
What a name is resolved to, read off the items of the module. If no item declares the name, or only items that are no
types, the answer says which; else the first type of the name decides, and what shares the name with it can be left
out. Following an alias never gives one of the first two answers, since a walk that comes to a name without a type
says that the alias is no struct.
-/

namespace Accessors

open File (Tree)

/-- The item declares a name, which may have a raw mark, as something of a kind. -/
def Item.Declares (item : Item) (name : String) (kind : SymbolKind) : Prop :=
  ∃ own, item.declared? = some (own, kind) ∧ unraw own.text = unraw name

def Item.DeclaresType (item : Item) (name : String) : Prop := ∃ kind, item.Declares name kind ∧ kind.isType = true

/-- The first item of which something holds. -/
def IsFirst (items : List Item) (holds : Item → Prop) (item : Item) : Prop :=
  holds item ∧ ∃ before after, items = before ++ item :: after ∧ ∀ earlier ∈ before, ¬ holds earlier

/-- The item has another name, or no name, or is a type. -/
def Item.noNamesake (name : String) (item : Item) : Bool :=
  item.declared?.all fun (own, kind) => kind.isType || unraw own.text != unraw name

/-- The items without those that share a name with a type. -/
def withoutNamesakes (name : String) (items : List Item) : List Item := items.filter (Item.noNamesake name)

/-! Lookup by items. -/

namespace Symbol

variable {items : List Item} {name : String} {item : Item} {kind : SymbolKind}

theorem of_item_declares (declares : item.Declares name kind) : ofItem? item = some ⟨unraw name, kind, item⟩ := by
  obtain ⟨own, declared, named⟩ := declares
  simp [ofItem?, declared, named]

theorem named_iff :
    (ofItem? item).any (fun s => s.name == unraw name) = true ↔ ∃ kind, item.Declares name kind := by
  unfold ofItem? Item.Declares
  cases item.declared? with
  | none => simp
  | some declared =>
      obtain ⟨own, kind⟩ := declared
      simp

theorem type_named_iff :
    (ofItem? item).any (fun s => s.name == unraw name && s.kind.isType) = true ↔ item.DeclaresType name := by
  unfold ofItem? Item.DeclaresType Item.Declares
  cases item.declared? with
  | none => simp
  | some declared =>
      obtain ⟨own, kind⟩ := declared
      constructor
      · intro named
        have both : unraw own.text = unraw name ∧ kind.isType = true := by simpa using named
        exact ⟨kind, ⟨own, rfl, both.1⟩, both.2⟩
      · rintro ⟨_, ⟨_, ⟨⟩, named⟩, typed⟩
        simp [named, typed]

/-- Lookup as two searches through the items, of which the first is for a type. -/
theorem find_of_items (items : List Item) (name : String) :
    find? (ofItems items) name
      = ((items.find? fun item => (ofItem? item).any fun s => s.name == unraw name && s.kind.isType).bind ofItem?).or
          ((items.find? fun item => (ofItem? item).any fun s => s.name == unraw name).bind ofItem?) := by
  unfold find? ofItems
  dsimp only
  rw [List.find?_filter, List.head?_filter, List.find?_filterMap, List.find?_filterMap]
  simp only [Bool.decide_and, Bool.decide_eq_true]

theorem find_first {test : Symbol → Bool} {holds : Item → Prop}
    (tests : ∀ item, (ofItem? item).any test = true ↔ holds item) :
    (items.find? fun item => (ofItem? item).any test) = some item ↔ IsFirst items holds item := by
  rw [List.find?_eq_some_iff_append, tests]
  refine and_congr_right fun _ => exists_congr fun before => exists_congr fun after => and_congr_right fun _ => ?_
  refine forall_congr' fun earlier => forall_congr' fun _ => ?_
  rw [Bool.not_eq_true', ← tests, Bool.not_eq_true]

theorem find_nothing {test : Symbol → Bool} {holds : Item → Prop}
    (tests : ∀ item, (ofItem? item).any test = true ↔ holds item) :
    (items.find? fun item => (ofItem? item).any test) = none ↔ ∀ item ∈ items, ¬ holds item := by
  rw [List.find?_eq_none]
  exact forall_congr' fun item => forall_congr' fun _ => not_congr (tests item)

theorem find_first_type (first : IsFirst items (·.DeclaresType name) item) (declares : item.Declares name kind) :
    find? (ofItems items) name = some ⟨unraw name, kind, item⟩ := by
  rw [find_of_items, (find_first fun _ => type_named_iff).mpr first, Option.bind_some, of_item_declares declares,
    Option.some_or]

theorem find_first_other (untyped : ∀ item ∈ items, ¬ item.DeclaresType name)
    (first : IsFirst items (fun item => ∃ kind, item.Declares name kind) item) (declares : item.Declares name kind) :
    find? (ofItems items) name = some ⟨unraw name, kind, item⟩ := by
  rw [find_of_items, (find_nothing fun _ => type_named_iff).mpr untyped, (find_first fun _ => named_iff).mpr first,
    Option.bind_none, Option.none_or, Option.bind_some, of_item_declares declares]

theorem find_undeclared (undeclared : ∀ item ∈ items, ¬ ∃ kind, item.Declares name kind) :
    find? (ofItems items) name = none := by
  have untyped : ∀ item ∈ items, ¬ item.DeclaresType name := by
    rintro item member ⟨kind, declares, _⟩
    exact undeclared item member ⟨kind, declares⟩
  rw [find_of_items, (find_nothing fun _ => type_named_iff).mpr untyped,
    (find_nothing fun _ => named_iff).mpr undeclared]
  rfl

end Symbol

/-- Either nothing of the name is declared, or no type, or there is a first type. -/
theorem declarations_of_name (items : List Item) (name : String) :
    (∀ item ∈ items, ¬ ∃ kind, item.Declares name kind)
      ∨ ((∀ item ∈ items, ¬ item.DeclaresType name)
          ∧ ∃ item kind, IsFirst items (fun item => ∃ kind, item.Declares name kind) item ∧ item.Declares name kind)
      ∨ ∃ item, IsFirst items (·.DeclaresType name) item := by
  cases typed : items.find? fun item => (Symbol.ofItem? item).any fun s => s.name == unraw name && s.kind.isType with
  | some item => exact Or.inr (Or.inr ⟨item, (Symbol.find_first fun _ => Symbol.type_named_iff).mp typed⟩)
  | none =>
      have untyped := (Symbol.find_nothing fun _ => Symbol.type_named_iff).mp typed
      cases named : items.find? fun item => (Symbol.ofItem? item).any fun s => s.name == unraw name with
      | none => exact Or.inl ((Symbol.find_nothing fun _ => Symbol.named_iff).mp named)
      | some item =>
          have first := (Symbol.find_first fun _ => Symbol.named_iff).mp named
          obtain ⟨kind, declares⟩ := first.1
          exact Or.inr (Or.inl ⟨untyped, item, kind, first, declares⟩)

/-- A declared type is found as some type. -/
theorem Symbol.find_type {items : List Item} {name : String} (typed : ∃ item ∈ items, item.DeclaresType name) :
    ∃ item kind, find? (ofItems items) name = some ⟨unraw name, kind, item⟩ ∧ kind.isType = true := by
  cases search : items.find? fun item => (ofItem? item).any fun s => s.name == unraw name && s.kind.isType with
  | none =>
      obtain ⟨item, member, declares⟩ := typed
      exact absurd declares ((find_nothing fun _ => type_named_iff).mp search item member)
  | some item =>
      have first := (find_first fun _ => type_named_iff).mp search
      obtain ⟨kind, declares, isType⟩ := first.1
      exact ⟨item, kind, find_first_type first declares, isType⟩

/-! The errors of walks. -/

namespace AliasWalk

variable {t : Tree} {layout : CrateLayout} {requested : String} {w : AliasWalk} {e : ResolutionError}

/-- An error that is not about how the name is declared where resolution starts. -/
def Strays (e : ResolutionError) : Prop := e.kind ≠ .typeNotFound ∧ e.kind ≠ .notATypeDeclaration

theorem meet_strays {m : Module} {name : String} (failed : w.meet requested m name = .error e) : Strays e := by
  unfold meet at failed
  cases lookup : Symbol.find? m.symbols name with
  | none =>
      rw [lookup] at failed
      cases failed
      exact ⟨by simp [ResolutionError.kind], by simp [ResolutionError.kind]⟩
  | some symbol =>
      rw [lookup] at failed
      obtain ⟨_, kind, item⟩ := symbol
      cases item <;> cases generic : w.target.hasArgs <;> simp only [generic] at failed <;> cases failed <;>
        exact ⟨by simp [ResolutionError.kind], by simp [ResolutionError.kind]⟩

theorem round_strays (failed : w.round t layout requested = .error e) : Strays e := by
  unfold round at failed
  split at failed
  · cases failed
    exact ⟨by simp [ResolutionError.kind], by simp [ResolutionError.kind]⟩
  · split at failed
    · next fault lost =>
        cases failed
        unfold followTarget at lost
        split at lost
        · cases lost
        · next segments name _ =>
            cases loaded : Module.loadSegments t layout segments with
            | ok m =>
                rw [loaded] at lost
                cases lost
            | error cause =>
                rw [loaded] at lost
                cases lost
                rw [Strays, Module.load_error loaded]
                decide
        · cases lost
          exact ⟨by simp [ResolutionError.kind], by simp [ResolutionError.kind]⟩
    · split at failed
      · cases failed
        exact ⟨by simp [ResolutionError.kind], by simp [ResolutionError.kind]⟩
      · exact meet_strays failed

theorem follow_strays (failed : w.follow t layout requested = .error e) : Strays e := by
  fun_induction follow t layout requested w with
  | case1 w fault stopped =>
      cases failed
      exact round_strays stopped
  | case2 => cases failed
  | case3 w next _ ih => exact ih failed

end AliasWalk

section

variable {t : Tree} {layout : CrateLayout} {m : Module} {name other : String} {item : Item} {kind : SymbolKind}

theorem resolve_undeclared (undeclared : ∀ item ∈ m.items, ¬ ∃ kind, item.Declares name kind) :
    resolveStruct t layout m name = .error (.typeNotFound name m.path) := by
  have lookup : Symbol.find? m.symbols name = none := Symbol.find_undeclared undeclared
  rw [resolveStruct, lookup]

theorem resolve_untyped (untyped : ∀ item ∈ m.items, ¬ item.DeclaresType name)
    (first : IsFirst m.items (fun item => ∃ kind, item.Declares name kind) item) (declares : item.Declares name kind) :
    resolveStruct t layout m name = .error (.notATypeDeclaration name kind) := by
  have lookup : Symbol.find? m.symbols name = some ⟨unraw name, kind, item⟩ :=
    Symbol.find_first_other untyped first declares
  have other : kind.isType = false := by
    obtain ⟨_, _, _, same, _⟩ := first
    by_contra typed
    exact untyped item (by simp [same]) ⟨kind, declares, Bool.not_eq_false _ ▸ typed⟩
  simp [resolveStruct, lookup, other]

/-- Where a type of the name is declared, the answer is neither that there is none nor that it is no type. -/
theorem resolve_typed_strays (first : IsFirst m.items (·.DeclaresType name) item) {e : ResolutionError}
    (failed : resolveStruct t layout m name = .error e) : AliasWalk.Strays e := by
  obtain ⟨kind, declares, typed⟩ := first.1
  have lookup : Symbol.find? m.symbols name = some ⟨unraw name, kind, item⟩ := Symbol.find_first_type first declares
  unfold resolveStruct at failed
  simp only [lookup, typed, Bool.not_true, Bool.false_eq_true, if_false] at failed
  split at failed
  · cases failed
  · cases followed : (AliasWalk.start m name _).follow t layout name with
    | error fault =>
        rw [followed] at failed
        cases failed
        exact AliasWalk.follow_strays followed
    | ok found =>
        simp only [followed, bind, Except.bind] at failed
        split at failed
        · cases failed
          exact ⟨by simp [ResolutionError.kind], by simp [ResolutionError.kind]⟩
        · cases failed
  · cases failed
    exact ⟨by simp [ResolutionError.kind], by simp [ResolutionError.kind]⟩

theorem resolve_other_type (first : IsFirst m.items (·.DeclaresType name) item) (declares : item.Declares name kind)
    (among : kind ∈ [SymbolKind.enum, .union, .trait]) :
    resolveStruct t layout m name = .error (.notAStruct name (.declared kind name)) := by
  have lookup : Symbol.find? m.symbols name = some ⟨unraw name, kind, item⟩ := Symbol.find_first_type first declares
  have typed : kind.isType = true := by
    obtain ⟨own, ⟨_, declared, _⟩, isType⟩ := first.1
    obtain ⟨_, declared', _⟩ := declares
    cases declared.symm.trans declared'
    exact isType
  obtain ⟨own, declared, _⟩ := declares
  unfold resolveStruct
  simp only [lookup, typed, Bool.not_true, Bool.false_eq_true, if_false]
  split
  · cases declared
    simp at among
  · cases declared
    simp at among
  · rfl

/-! Namesakes. -/

theorem no_namesake_of_type (typed : item.DeclaresType other) : item.noNamesake name = true := by
  obtain ⟨kind, ⟨own, declared, _⟩, isType⟩ := typed
  simp [Item.noNamesake, declared, isType]

theorem no_namesake_of_other (differs : unraw other ≠ unraw name) (declares : item.Declares other kind) :
    item.noNamesake name = true := by
  obtain ⟨own, declared, named⟩ := declares
  simp [Item.noNamesake, declared, named, differs]

/-- What shares its name with a type is never found. -/
theorem find_without_namesakes {items : List Item} (typed : ∃ item ∈ items, item.DeclaresType name) (other : String) :
    Symbol.find? (Symbol.ofItems (withoutNamesakes name items)) other = Symbol.find? (Symbol.ofItems items) other := by
  have kept {test : Symbol → Bool}
      (tested : ∀ item, (Symbol.ofItem? item).any test = true → item.noNamesake name = true) :
      ((withoutNamesakes name items).find? fun item => (Symbol.ofItem? item).any test)
        = items.find? fun item => (Symbol.ofItem? item).any test := by
    rw [withoutNamesakes, List.find?_filter]
    congr 1
    funext item
    have both := tested item
    cases test : (Symbol.ofItem? item).any test <;> simp_all
  rw [Symbol.find_of_items, Symbol.find_of_items,
    kept fun item test => no_namesake_of_type (Symbol.type_named_iff.mp test)]
  by_cases same : unraw other = unraw name
  · cases search : items.find? fun item => (Symbol.ofItem? item).any fun s => s.name == unraw other && s.kind.isType with
    | none =>
        obtain ⟨item, member, kind, ⟨own, declared, named⟩, isType⟩ := typed
        exact absurd ⟨kind, ⟨own, declared, named.trans same.symm⟩, isType⟩
          ((Symbol.find_nothing fun _ => Symbol.type_named_iff).mp search item member)
    | some item =>
        obtain ⟨kind, declares, _⟩ := ((Symbol.find_first fun _ => Symbol.type_named_iff).mp search).1
        rw [Option.bind_some, Symbol.of_item_declares declares, Option.some_or, Option.some_or]
  · rw [kept fun item test => ?_]
    obtain ⟨kind, declares⟩ := Symbol.named_iff.mp test
    exact no_namesake_of_other same declares

theorem imports_without_namesakes (items : List Item) (module : List String) :
    ImportMap.ofItems (withoutNamesakes name items) module = ImportMap.ofItems items module := by
  unfold ImportMap.ofItems withoutNamesakes
  rw [List.foldl_filter]
  congr 1
  funext map item
  split
  · rfl
  · next dropped =>
      cases item with
      | use rooted tree => exact absurd rfl dropped
      | _ => rfl

/-- One crate, with nothing in the place of anything else. -/
def unchanged (t : Tree) (layout : CrateLayout) : Correspondence t t layout where
  targets _ _ target target' := target' = target
  errors e e' := e' = e
  sameError _ := rfl
  loads rest := by
    cases Module.loadSegments t layout ("crate" :: rest) with
    | ok m => exact .loaded (.refl fun _ => rfl)
    | error e => exact .failed rfl
  leads _ same := Or.inl same

/-- A type is resolved as if nothing else had its name. -/
theorem resolve_without_namesakes (typed : ∃ item ∈ m.items, item.DeclaresType name) :
    resolveStruct t layout { m with items := withoutNamesakes name m.items } name = resolveStruct t layout m name := by
  have alike : m.Alike (unchanged t layout).targets { m with items := withoutNamesakes name m.items } := by
    refine ⟨rfl, imports_without_namesakes m.items m.segments, fun other => ?_⟩
    have lookups : Symbol.find? (Module.symbols { m with items := withoutNamesakes name m.items }) other
        = Symbol.find? m.symbols other := find_without_namesakes typed other
    rw [lookups]
    cases Symbol.find? m.symbols other with
    | none => exact .none
    | some symbol =>
        have same (target : Ty) : (unchanged t layout).targets m
          { m with items := withoutNamesakes name m.items } target target := rfl
        exact .some ⟨rfl, .refl same symbol.item⟩
  have answers := (unchanged t layout).answers alike name
  revert answers
  generalize resolveStruct t layout m name = answer
  generalize resolveStruct t layout { m with items := withoutNamesakes name m.items } name = answer'
  rintro (same | _)
  · exact congrArg Except.error same
  · rfl

/-- A name of which no item is a declaration is not found; one of which some are, but no types, is told by the first of
them; else the first type of the name decides, and the answer is as if nothing else had the name. -/
theorem resolution_by_first_type (t : Tree) (layout : CrateLayout) (m : Module) (name : String) :
    (∀ asked path, resolveStruct t layout m name = .error (.typeNotFound asked path)
        ↔ asked = name ∧ path = m.path ∧ ∀ item ∈ m.items, ¬ ∃ kind, item.Declares name kind)
      ∧ (∀ asked kind, resolveStruct t layout m name = .error (.notATypeDeclaration asked kind)
        ↔ asked = name ∧ (∀ item ∈ m.items, ¬ item.DeclaresType name)
          ∧ ∃ item, IsFirst m.items (fun item => ∃ kind, item.Declares name kind) item ∧ item.Declares name kind)
      ∧ (∀ decl, IsFirst m.items (·.DeclaresType name) (.struct decl) →
        resolveStruct t layout m name
          = .ok ⟨name, m.path, decl.fields, m.imports, Signature.generics m.imports decl.generics⟩)
      ∧ (∀ item kind, IsFirst m.items (·.DeclaresType name) item → item.Declares name kind →
        kind ∈ [.enum, .union, .trait] →
        resolveStruct t layout m name = .error (.notAStruct name (.declared kind name)))
      ∧ (∀ decl, IsFirst m.items (·.DeclaresType name) (.typeAlias decl) →
        resolveStruct t layout m name = (do
          let (found, struct) ← (AliasWalk.start m name decl.target).follow t layout name
          if found.path ≠ m.path then
            .error (.unsupportedAlias name (.elsewhere found.path struct.name.text))
          else .ok (.ofDecl name found struct)))
      ∧ ((∃ item ∈ m.items, item.DeclaresType name) →
        resolveStruct t layout { m with items := withoutNamesakes name m.items } name
          = resolveStruct t layout m name) := by
  have typed {item : Item} (first : IsFirst m.items (·.DeclaresType name) item) : item ∈ m.items := by
    obtain ⟨_, _, _, same, _⟩ := first
    simp [same]
  have finds {item : Item} (first : IsFirst m.items (·.DeclaresType name) item) : m.Finds name item := by
    obtain ⟨kind, declares, _⟩ := first.1
    exact ⟨_, Symbol.find_first_type first declares, rfl⟩
  refine ⟨fun asked path => ?_, fun asked kind => ?_, fun decl first => resolve_struct (finds first), ?_,
    fun decl first => resolve_alias (finds first), resolve_without_namesakes⟩
  · rcases declarations_of_name m.items name with undeclared | ⟨untyped, item, kind, first, declares⟩ | ⟨item, first⟩
    · rw [resolve_undeclared undeclared]
      constructor
      · rintro ⟨⟩
        exact ⟨rfl, rfl, undeclared⟩
      · rintro ⟨rfl, rfl, _⟩
        rfl
    · rw [resolve_untyped untyped first declares]
      obtain ⟨_, before, after, same, _⟩ := first
      constructor
      · rintro ⟨⟩
      · rintro ⟨_, _, undeclared⟩
        exact absurd ⟨kind, declares⟩ (undeclared item (by simp [same]))
    · constructor
      · intro failed
        exact absurd rfl (resolve_typed_strays first failed).1
      · rintro ⟨_, _, undeclared⟩
        obtain ⟨kind, declares, _⟩ := first.1
        exact absurd ⟨kind, declares⟩ (undeclared item (typed first))
  · rcases declarations_of_name m.items name with undeclared | ⟨untyped, item, own, first, declares⟩ | ⟨item, first⟩
    · rw [resolve_undeclared undeclared]
      constructor
      · rintro ⟨⟩
      · rintro ⟨_, _, item, ⟨declared, before, after, same, _⟩, _⟩
        exact absurd declared (undeclared item (by simp [same]))
    · rw [resolve_untyped untyped first declares]
      constructor
      · rintro ⟨⟩
        exact ⟨rfl, untyped, item, first, declares⟩
      · rintro ⟨rfl, _, again, first', declares'⟩
        have one := (Symbol.find_first_other untyped first declares).symm.trans
          (Symbol.find_first_other untyped first' declares')
        cases one
        rfl
    · constructor
      · intro failed
        exact absurd rfl (resolve_typed_strays first failed).2
      · rintro ⟨_, untyped, _⟩
        exact absurd first.1 (untyped item (typed first))
  · exact fun item kind first declares among => resolve_other_type first declares among

end

namespace NamespaceSample

def name : Ident := ⟨"Q", by decide +kernel⟩

def nameRaw : Ident := ⟨"r#Q", by decide +kernel⟩

def struct : StructDecl := ⟨nameRaw, ⟨[], []⟩, .unit⟩

/-- A module in which a function, a struct and an enum have one name. -/
def shared : Module := ⟨["crate"], ⟨"/lib.rs"⟩, [.function name, .struct struct, .enum name]⟩

def tree : Tree := ⟨[], []⟩

def layout : CrateLayout := ⟨⟨"/"⟩, "sample", ⟨"/lib.rs"⟩⟩

end NamespaceSample

open NamespaceSample in
theorem struct_of_sample_resolves :
    IsFirst shared.items (·.DeclaresType "Q") (.struct struct)
      ∧ resolveStruct tree layout shared "Q"
        = .ok ⟨"Q", "crate", .unit, shared.imports, Signature.generics shared.imports ⟨[], []⟩⟩
      ∧ resolveStruct tree layout { shared with items := [.struct struct, .enum name] } "Q"
        = resolveStruct tree layout shared "Q"
      ∧ resolveStruct tree layout { shared with items := [.function name] } "Q"
        = .error (.notATypeDeclaration "Q" .function) := by
  have marks : unraw "r#Q" = unraw "Q" := by decide +kernel
  have declares : (Item.struct struct).DeclaresType "Q" := ⟨.struct, ⟨nameRaw, rfl, marks⟩, rfl⟩
  have untyped : ¬ (Item.function name).DeclaresType "Q" := by
    rintro ⟨_, ⟨_, ⟨⟩, _⟩, ⟨⟩⟩
  have first : IsFirst shared.items (·.DeclaresType "Q") (.struct struct) :=
    ⟨declares, [.function name], [.enum name], rfl, by simpa using untyped⟩
  have namesake : (Item.function name).noNamesake "Q" = false := by decide +kernel
  have kept : withoutNamesakes "Q" shared.items = [.struct struct, .enum name] := by
    have types : Item.noNamesake "Q" (.struct struct) = true ∧ Item.noNamesake "Q" (.enum name) = true := ⟨rfl, rfl⟩
    simp [withoutNamesakes, shared, namesake, types]
  obtain ⟨_, _, resolved, _, _, alone⟩ := resolution_by_first_type tree layout shared "Q"
  refine ⟨first, resolved struct first, ?_, ?_⟩
  · rw [← kept]
    exact alone ⟨_, by simp [shared], declares⟩
  · refine ((resolution_by_first_type tree layout { shared with items := [.function name] } "Q").2.1 _ _).mpr ?_
    have named : (Item.function name).Declares "Q" .function := ⟨name, rfl, rfl⟩
    exact ⟨rfl, by simpa using untyped, _, ⟨⟨_, named⟩, [], [], rfl, by simp⟩, named⟩

end Accessors
