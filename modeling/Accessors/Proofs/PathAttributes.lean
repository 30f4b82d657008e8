import Accessors.Proofs.ModuleFiles

/-!
The files that `path` attributes name. The rule says for every module where it stands: its file, the directory in
which the modules that it declares are looked for by their names, and the directory from which the attributes on
them are read. The attribute on a module in braces names a directory, which is the module's instead of the one of
its name. Loading a module does not look at that attribute, and keeps to the rule exactly where it changes nothing.
-/

namespace Accessors

/-- Where a module stands. -/
structure ModulePlace where
  file : File.Path
  /-- Where modules declared in it are looked for by their names. -/
  search : File.Path
  /-- What attributes on modules declared in it are read from. -/
  base : File.Path

/-- A module that has a file to itself, with the files of its own modules below a directory. -/
def ModulePlace.ofFile (file search : File.Path) : ModulePlace := ⟨file, search, directoryOf file⟩

/-- A module in braces in a file, which stands for a directory. -/
def ModulePlace.ofBraces (file dir : File.Path) : ModulePlace := ⟨file, dir, dir⟩

/-- The rule for a module that is declared among the items of another one: where it stands, and what is declared in
it. -/
inductive StandsBelow (t : File.Tree) (above : ModulePlace) (items : List Item) (name : String) :
    ModulePlace → List Item → Prop where
  /-- A module in braces stands for the directory of its name. -/
  | braces {body : List Item} (declares : DeclaresModule items name none (some body)) :
      StandsBelow t above items name (.ofBraces above.file (above.search.join ⟨name⟩)) body
  /-- With an attribute it stands for the directory that is named. -/
  | namedBraces {named : String} {body : List Item} (declares : DeclaresModule items name (some named) (some body)) :
      StandsBelow t above items name (.ofBraces above.file (above.base.join ⟨named⟩)) body
  /-- A module in a file of its own name, or in a file `mod.rs`, has the directory of its name. -/
  | file {inner : List Item} (declares : DeclaresModule items name none none)
      (read : itemsOf t (fileByName t above.search name) = .ok inner) :
      StandsBelow t above items name (.ofFile (fileByName t above.search name) (above.search.join ⟨name⟩)) inner
  /-- A module in a file that is named has the directory of that file. -/
  | namedFile {named : String} {inner : List Item} (declares : DeclaresModule items name (some named) none)
      (read : itemsOf t (above.base.join ⟨named⟩) = .ok inner) :
      StandsBelow t above items name (.ofFile (above.base.join ⟨named⟩) (directoryOf (above.base.join ⟨named⟩))) inner

/-- The rule for the modules of a crate, from the entry file on. -/
inductive Resolved (t : File.Tree) (layout : CrateLayout) : List String → ModulePlace → List Item → Prop where
  | entry {items : List Item} (read : itemsOf t layout.entry = .ok items) :
      Resolved t layout [] (.ofFile layout.entry (directoryOf layout.entry)) items
  | inner {names : List String} {name : String} {above place : ModulePlace} {outer items : List Item}
      (resolved : Resolved t layout names above outer) (stands : StandsBelow t above outer name place items) :
      Resolved t layout (names ++ [name]) place items

/-- The place that a walk has come to. -/
def Walk.place (w : Walk) : ModulePlace := ⟨w.file, w.childDir, w.attributeDir⟩

namespace Walk

variable {w : Walk} {file dir : File.Path} {items : List Item}

theorem place_of_file : Walk.place ⟨file, items, dir, directoryOf file⟩ = .ofFile file dir := rfl

theorem place_of_braces : Walk.place ⟨file, items, dir, dir⟩ = .ofBraces file dir := rfl

theorem eq_of_file (stands : w.place = .ofFile file dir) : w = ⟨file, w.items, dir, directoryOf file⟩ := by
  cases w
  simp_all [place, ModulePlace.ofFile]

theorem eq_of_braces (stands : w.place = .ofBraces file dir) : w = ⟨file, w.items, dir, dir⟩ := by
  cases w
  simp_all [place, ModulePlace.ofBraces]

end Walk

section

variable {t : File.Tree} {layout : CrateLayout} {names : List String} {name : String} {above place : ModulePlace}
  {items : List Item} {file : File.Path}

theorem resolved_nil : Resolved t layout [] place items
    ↔ place = .ofFile layout.entry (directoryOf layout.entry) ∧ itemsOf t layout.entry = .ok items := by
  constructor
  · intro resolved
    generalize whole : ([] : List String) = path at resolved
    cases resolved with
    | entry read => exact ⟨rfl, read⟩
    | inner => simp at whole
  · rintro ⟨rfl, read⟩
    exact .entry read

theorem resolved_append : Resolved t layout (names ++ [name]) place items
    ↔ ∃ above outer, Resolved t layout names above outer ∧ StandsBelow t above outer name place items := by
  constructor
  · intro resolved
    generalize whole : names ++ [name] = path at resolved
    cases resolved with
    | entry => simp at whole
    | inner resolved stands =>
        obtain ⟨rfl, single⟩ := List.append_inj' whole rfl
        obtain rfl := (List.cons.inj single).1
        exact ⟨_, _, resolved, stands⟩
  · rintro ⟨above, outer, resolved, stands⟩
    exact .inner resolved stands

theorem stands_below_unique {place' : ModulePlace} {outer items' : List Item}
    (stands : StandsBelow t above outer name place items) (stands' : StandsBelow t above outer name place' items') :
    place = place' ∧ items = items' := by
  rcases stands with ⟨declares⟩ | ⟨declares⟩ | ⟨declares, read⟩ | ⟨declares, read⟩ <;>
    rcases stands' with ⟨declares'⟩ | ⟨declares'⟩ | ⟨declares', read'⟩ | ⟨declares', read'⟩ <;>
    cases declares.symm.trans declares'
  · exact ⟨rfl, rfl⟩
  · exact ⟨rfl, rfl⟩
  · exact ⟨rfl, Except.ok.inj (read.symm.trans read')⟩
  · exact ⟨rfl, Except.ok.inj (read.symm.trans read')⟩

/-- A module stands in one place. -/
theorem resolved_unique {place' : ModulePlace} {items' : List Item} (resolved : Resolved t layout names place items)
    (resolved' : Resolved t layout names place' items') : place = place' ∧ items = items' := by
  induction names using List.reverseRecOn generalizing place items place' items' with
  | nil =>
      obtain ⟨rfl, read⟩ := resolved_nil.mp resolved
      obtain ⟨rfl, read'⟩ := resolved_nil.mp resolved'
      exact ⟨rfl, Except.ok.inj (read.symm.trans read')⟩
  | append_singleton names last ih =>
      obtain ⟨above, outer, reached, stands⟩ := resolved_append.mp resolved
      obtain ⟨above', outer', reached', stands'⟩ := resolved_append.mp resolved'
      obtain ⟨rfl, rfl⟩ := ih reached reached'
      exact stands_below_unique stands stands'

theorem is_file_of_items (read : itemsOf t file = .ok items) : t.isFile file = true := by
  obtain ⟨text, found, _⟩ := Outcome.bind_ok.mp read
  have content := Outcome.map_error_ok.mp found
  unfold File.Tree.readText at content
  obtain ⟨node, there, shape⟩ := Outcome.bind_ok.mp content
  rw [File.Tree.isFile, there]
  rcases node with _ | ⟨_ | _⟩ | _ <;> simp_all

theorem locate_by_name_ok {w : Walk} (read : itemsOf t (fileByName t w.childDir name) = .ok items) :
    w.locate t name none = .ok (fileByName t w.childDir name, w.childDir.join ⟨name⟩) := by
  have there := is_file_of_items read
  unfold fileByName at there ⊢
  unfold Walk.locate
  split at there
  · next found => simp [found]
  · next missing => simp [missing, there]

/-- A step of loading a module keeps to the rule if the attribute on a module in braces names the directory that the
module has by its name. -/
theorem Walk.descend_stands {w next : Walk}
    (own : ∀ named body, DeclaresModule w.items name (some named) (some body) →
      w.attributeDir.join ⟨named⟩ = w.childDir.join ⟨name⟩) :
    w.descend t name = .ok next ↔ StandsBelow t w.place w.items name next.place next.items := by
  rw [Walk.descend_ok]
  constructor
  · rintro (⟨named, body, declares, shape⟩ | ⟨named, file, childDir, items, declares, located, read, shape⟩)
    · rw [shape, Walk.place_of_braces]
      rcases named with _ | named
      · exact .braces declares
      · rw [← own named body declares]
        exact .namedBraces declares
    · rw [shape, Walk.place_of_file]
      rcases named with _ | named
      · obtain ⟨rfl, rfl⟩ := Walk.locate_by_name located
        exact .file declares read
      · cases located
        exact .namedFile declares read
  · intro stands
    generalize shape : next.place = place at stands
    generalize made : next.items = inner at stands
    rcases stands with ⟨declares⟩ | ⟨declares⟩ | ⟨declares, read⟩ | ⟨declares, read⟩
    · rw [Walk.eq_of_braces shape, made]
      exact Or.inl ⟨none, _, declares, rfl⟩
    · have away : w.place.base.join ⟨_⟩ = w.childDir.join ⟨name⟩ := own _ _ declares
      rw [Walk.eq_of_braces shape, made, away]
      exact Or.inl ⟨_, _, declares, rfl⟩
    · rw [Walk.eq_of_file shape, made]
      exact Or.inr ⟨none, _, _, _, declares, locate_by_name_ok read, read, rfl⟩
    · rw [Walk.eq_of_file shape, made]
      exact Or.inr ⟨_, _, _, _, declares, rfl, read, rfl⟩

/-- Every attribute on a module in braces names the directory that the module has by its name. -/
def OwnDirectories (t : File.Tree) (layout : CrateLayout) (names : List String) : Prop :=
  ∀ before name, before ++ [name] <+: names → ∀ place items, Resolved t layout before place items →
    ∀ named body, DeclaresModule items name (some named) (some body) → place.base.join ⟨named⟩ = place.search.join ⟨name⟩

/-- The walk to every module on the way of some names comes to what the rule says, and to nothing else. -/
def WalksByRule (t : File.Tree) (layout : CrateLayout) (names : List String) : Prop :=
  ∀ before, before <+: names → ∀ w, Walk.along t layout before = .ok w ↔ Resolved t layout before w.place w.items

theorem along_iff_resolved (own : OwnDirectories t layout names) (w : Walk) :
    Walk.along t layout names = .ok w ↔ Resolved t layout names w.place w.items := by
  induction names using List.reverseRecOn generalizing w with
  | nil =>
      rw [Walk.along_nil_ok, resolved_nil]
      constructor
      · rintro ⟨items, read, rfl⟩
        exact ⟨rfl, read⟩
      · rintro ⟨stands, read⟩
        exact ⟨w.items, read, Walk.eq_of_file stands⟩
  | append_singleton names last ih =>
      have ownAbove : OwnDirectories t layout names := fun before name way => own before name (way.trans (List.prefix_append _ _))
      have step (above next : Walk) (resolved : Resolved t layout names above.place above.items) :
          above.descend t last = .ok next ↔ StandsBelow t above.place above.items last next.place next.items :=
        Walk.descend_stands fun named body => own names last (List.prefix_refl _) _ _ resolved named body
      rw [Walk.along_append_ok, resolved_append]
      constructor
      · rintro ⟨above, walked, descends⟩
        have resolved := (ih ownAbove above).mp walked
        exact ⟨above.place, above.items, resolved, (step above w resolved).mp descends⟩
      · rintro ⟨above, outer, resolved, stands⟩
        let reached : Walk := ⟨above.file, outer, above.search, above.base⟩
        exact ⟨reached, (ih ownAbove reached).mpr resolved, (step reached w resolved).mpr stands⟩

/-- Loading finds every module on the way where the rule says, exactly if every attribute on a module in braces
names the directory that the module has by its name. -/
theorem walks_by_rule_iff (t : File.Tree) (layout : CrateLayout) (names : List String) :
    (WalksByRule t layout names ↔ OwnDirectories t layout names)
      ∧ (OwnDirectories t layout names → ∀ m, Module.loadSegments t layout ("crate" :: names) = .ok m
          ↔ m.segments = "crate" :: names ∧ ∃ place, Resolved t layout names place m.items ∧ place.file = m.file) := by
  refine ⟨⟨fun byRule => ?_, fun own => ?_⟩, fun own m => ?_⟩
  · intro before name way place items resolved named body declares
    let reached : Walk := ⟨place.file, items, place.search, place.base⟩
    have walked : Walk.along t layout before = .ok reached :=
      (byRule before ((List.prefix_append _ _).trans way) reached).mpr resolved
    have descends := Walk.along_append_ok.mpr ⟨reached, walked, Walk.descend_ok.mpr (Or.inl ⟨_, _, declares, rfl⟩)⟩
    have byName := (byRule _ way _).mp descends
    have byAttribute := Resolved.inner resolved (StandsBelow.namedBraces declares)
    exact congrArg ModulePlace.search (resolved_unique byAttribute byName).1
  · intro before way
    exact along_iff_resolved fun first name more => own first name (more.trans way)
  · rw [Module.load_names_ok]
    constructor
    · rintro ⟨w, walked, rfl⟩
      exact ⟨rfl, w.place, (along_iff_resolved own w).mp walked, rfl⟩
    · rintro ⟨segments, place, resolved, file⟩
      let reached : Walk := ⟨place.file, m.items, place.search, place.base⟩
      refine ⟨reached, (along_iff_resolved own reached).mpr resolved, ?_⟩
      cases m
      simp_all [reached]

end

namespace AttributeSample

def layout : CrateLayout := ⟨⟨"/"⟩, "sample", ⟨"/lib.rs"⟩⟩

/-- A crate with a module in braces in its entry file, and with two files for the module in it. -/
def tree (entry : String) : File.Tree :=
  ⟨[(["lib.rs".toList], .file (.text entry)), ([['z']], .directory), ([['z'], "y.rs".toList], .file (.text "struct A;")),
    ([['x']], .directory), ([['x'], "y.rs".toList], .file (.text "struct B;"))], []⟩

/-- Here the attributes name the directory that the module in braces has by its name, and a file outside of it. -/
def kept : File.Tree := tree "#[path = \"x\"] mod x \x7b #[path = \"../z/y.rs\"] mod y; \x7d"

/-- Here the module in braces has the name of another directory. -/
def lost : File.Tree := tree "#[path = \"z\"] mod x \x7b mod y; \x7d"

end AttributeSample

open AttributeSample in
theorem walks_by_rule_of_sample : OwnDirectories kept layout ["x", "y"]
    ∧ WalksByRule kept layout ["x", "y"]
    ∧ ∃ m, Module.loadSegments kept layout ["crate", "x", "y"] = .ok m ∧ m.file = ⟨"/x/../z/y.rs"⟩
        ∧ ∃ place, Resolved kept layout ["x", "y"] place m.items ∧ place.file = m.file := by
  let y : Item := .module ⟨"y", by decide +kernel⟩ (some "../z/y.rs") none
  have entry : itemsOf kept layout.entry = .ok [.module ⟨"x", by decide +kernel⟩ (some "x") (some [y])] := rfl
  have loaded : Module.loadSegments kept layout ["crate", "x", "y"]
      = .ok ⟨_, ⟨"/x/../z/y.rs"⟩, [.struct ⟨⟨"A", by decide +kernel⟩, ⟨[], []⟩, .unit⟩]⟩ := rfl
  have own : OwnDirectories kept layout ["x", "y"] := by
    intro before name way place items resolved named body declares
    rcases before with _ | ⟨first, _ | ⟨second, more⟩⟩
    · obtain ⟨rfl, read⟩ := resolved_nil.mp resolved
      cases entry.symm.trans read
      obtain rfl : name = "x" := by simp_all
      cases declares
      rfl
    · obtain ⟨rfl, rfl⟩ : first = "x" ∧ name = "y" := by simp_all
      have outer : Resolved kept layout ([] ++ ["x"]) _ _ := .inner (.entry entry) (.namedBraces rfl)
      obtain ⟨_, rfl⟩ := resolved_unique outer resolved
      cases declares
    · simp at way
  have rule := walks_by_rule_iff kept layout ["x", "y"]
  exact ⟨own, rule.1.mpr own, _, loaded, rfl, ((rule.2 own _).mp loaded).2⟩

open AttributeSample in
theorem directory_of_braces_lost : ∃ m place items,
    Module.loadSegments lost layout ["crate", "x", "y"] = .ok m ∧ m.file = ⟨"/x/y.rs"⟩
      ∧ Resolved lost layout ["x", "y"] place items ∧ place.file = ⟨"/z/y.rs"⟩ := by
  have entry : itemsOf lost layout.entry
      = .ok [.module ⟨"x", by decide +kernel⟩ (some "z") (some [.module ⟨"y", by decide +kernel⟩ none none])] := rfl
  have read : itemsOf lost ⟨"/z/y.rs"⟩ = .ok [.struct ⟨⟨"A", by decide +kernel⟩, ⟨[], []⟩, .unit⟩] := rfl
  have loaded : Module.loadSegments lost layout ["crate", "x", "y"]
      = .ok ⟨_, ⟨"/x/y.rs"⟩, [.struct ⟨⟨"B", by decide +kernel⟩, ⟨[], []⟩, .unit⟩]⟩ := rfl
  have outer : Resolved lost layout ([] ++ ["x"]) _ _ := .inner (.entry entry) (.namedBraces rfl)
  have inner : Resolved lost layout (["x"] ++ ["y"]) _ _ := .inner outer (.file rfl read)
  exact ⟨_, _, _, loaded, rfl, inner, rfl⟩

end Accessors
