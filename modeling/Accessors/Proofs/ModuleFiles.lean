import Accessors.File.Reading
import Accessors.Proofs.ModulePath
import Mathlib.Data.List.Induction

/-!
The files that the modules of a crate stand in. Without `path` attributes the place of a module is told by its path
alone: below the directory of the entry file every module has the directory of its names, whether it stands in a
file of its own name, in a file `mod.rs` or in braces. So a module in braces changes nothing for the modules below
it, and two crates that agree from some module on agree in all that is declared below it.
-/

namespace Accessors

/-- The first `mod` declaration of a name among some items, with the file that its `path` attribute names and the
items that it has in braces. -/
def DeclaresModule (items : List Item) (name : String) (named : Option String) (body : Option (List Item)) : Prop :=
  items.findSome? (moduleDeclared name) = some (named, body)

/-- The files that a module without braces is looked for in: one of its name, and `mod.rs` in the directory of its
name. -/
def filesByName (dir : File.Path) (name : String) : List File.Path :=
  [dir.join ⟨name ++ ".rs"⟩, (dir.join ⟨name⟩).join ⟨"mod.rs"⟩]

/-- The file of the name if there is one, or else `mod.rs`. -/
def fileByName (t : File.Tree) (dir : File.Path) (name : String) : File.Path :=
  if t.isFile (dir.join ⟨name ++ ".rs"⟩) then dir.join ⟨name ++ ".rs"⟩ else (dir.join ⟨name⟩).join ⟨"mod.rs"⟩

/-- The directory of some names below a directory. -/
def directoryBelow (dir : File.Path) (names : List String) : File.Path :=
  names.foldl (fun above name => above.join ⟨name⟩) dir

theorem directory_below_append (dir : File.Path) (names : List String) (last : String) :
    directoryBelow dir (names ++ [last]) = (directoryBelow dir names).join ⟨last⟩ := by
  simp [directoryBelow]

theorem directory_below_below (dir : File.Path) (front back : List String) :
    directoryBelow dir (front ++ back) = directoryBelow (directoryBelow dir front) back := by
  simp [directoryBelow]

theorem file_by_name_mem (t : File.Tree) (dir : File.Path) (name : String) :
    fileByName t dir name ∈ filesByName dir name := by
  unfold fileByName filesByName
  split
  · exact List.mem_cons_self
  · exact List.mem_cons_of_mem _ List.mem_cons_self

namespace Walk

variable {t u : File.Tree} {layout other : CrateLayout} {w next : Walk} {segment : String} {names : List String}

/-- The walk from the entry file through the modules of some names. -/
def along (t : File.Tree) (layout : CrateLayout) (names : List String) : Except LoadFault Walk := do
  names.foldlM (descend t) (← start t layout.entry)

theorem along_nil_ok : Walk.along t layout [] = .ok w
    ↔ ∃ items, itemsOf t layout.entry = .ok items
        ∧ w = ⟨layout.entry, items, directoryOf layout.entry, directoryOf layout.entry⟩ := by
  simp only [Walk.along, start, List.foldlM_nil, bind_pure, Outcome.bind_ok, Outcome.pure_ok, eq_comm (a := w)]

theorem along_append_ok {last : String} : Walk.along t layout (names ++ [last]) = .ok w
    ↔ ∃ above, Walk.along t layout names = .ok above ∧ above.descend t last = .ok w := by
  simp only [Walk.along, List.foldlM_append, List.foldlM_cons, List.foldlM_nil, bind_pure, Outcome.bind_ok]
  constructor
  · rintro ⟨entry, opened, above, walked, step⟩
    exact ⟨above, ⟨entry, opened, walked⟩, step⟩
  · rintro ⟨above, ⟨entry, opened, walked⟩, step⟩
    exact ⟨entry, opened, above, walked, step⟩

/-- A walk goes on in braces, or in the file that is named or found by the name of the module. -/
theorem descend_ok : w.descend t segment = .ok next
    ↔ (∃ named body, DeclaresModule w.items segment named (some body)
          ∧ next = ⟨w.file, body, w.childDir.join ⟨segment⟩, w.childDir.join ⟨segment⟩⟩)
      ∨ ∃ named file childDir items, DeclaresModule w.items segment named none
          ∧ w.locate t segment named = .ok (file, childDir) ∧ itemsOf t file = .ok items
          ∧ next = ⟨file, items, childDir, directoryOf file⟩ := by
  unfold descend DeclaresModule
  rcases w.items.findSome? (moduleDeclared segment) with _ | ⟨named, _ | body⟩
  · simp
  · constructor
    · intro done
      obtain ⟨⟨file, childDir⟩, located, rest⟩ := Outcome.bind_ok.mp done
      obtain ⟨items, read, shape⟩ := Outcome.bind_ok.mp rest
      exact Or.inr ⟨named, file, childDir, items, rfl, located, read, (Outcome.pure_ok.mp shape).symm⟩
    · rintro (⟨_, _, absent, _⟩ | ⟨_, file, childDir, items, same, located, read, shape⟩)
      · cases absent
      · cases same
        refine Outcome.bind_ok.mpr ⟨(file, childDir), located, Outcome.bind_ok.mpr ⟨items, read, ?_⟩⟩
        exact Outcome.pure_ok.mpr shape.symm
  · constructor
    · intro done
      cases done
      exact Or.inl ⟨named, body, rfl, rfl⟩
    · rintro (⟨_, _, same, shape⟩ | ⟨_, _, _, _, absent, _⟩)
      · cases same
        rw [shape]
      · cases absent

theorem locate_by_name {file childDir : File.Path} (located : w.locate t segment none = .ok (file, childDir)) :
    file = fileByName t w.childDir segment ∧ childDir = w.childDir.join ⟨segment⟩ := by
  unfold locate at located
  unfold fileByName
  simp only at located
  split at located
  · next found =>
      rw [if_pos found]
      cases located
      exact ⟨rfl, rfl⟩
  · next missing =>
      rw [if_neg missing]
      split at located
      · cases located
        exact ⟨rfl, rfl⟩
      · cases located

/-- What is found by its name in one tree is found so in every tree that has the same of the files it is looked for
in. -/
theorem locate_congr {v : Walk} (dir : v.childDir = w.childDir)
    (same : ∀ path ∈ filesByName w.childDir segment, (File.Look.probe path).SameIn t u) :
    v.locate u segment none = w.locate t segment none := by
  have flat : u.isFile (w.childDir.join ⟨segment ++ ".rs"⟩) = t.isFile (w.childDir.join ⟨segment ++ ".rs"⟩) :=
    same _ List.mem_cons_self
  have nested : u.isFile ((w.childDir.join ⟨segment⟩).join ⟨"mod.rs"⟩)
      = t.isFile ((w.childDir.join ⟨segment⟩).join ⟨"mod.rs"⟩) :=
    same _ (List.mem_cons_of_mem _ List.mem_cons_self)
  simp only [locate, dir, flat, nested]

end Walk

theorem items_of_congr {t u : File.Tree} {path : File.Path} (same : (File.Look.read path).SameIn t u) :
    itemsOf u path = itemsOf t path := by
  have text : u.readText path = t.readText path := same
  rw [itemsOf, itemsOf, text]

namespace Module

variable {t : File.Tree} {layout : CrateLayout} {m : Module} {names : List String}

/-- A module is loaded by the walk to it. -/
theorem load_names_ok : loadSegments t layout ("crate" :: names) = .ok m
    ↔ ∃ w, Walk.along t layout names = .ok w ∧ m = ⟨"crate" :: names, w.file, w.items⟩ := by
  rw [load_segments_ok]
  simp only [Walk.along, Outcome.bind_ok, List.drop_succ_cons, List.drop_zero]
  constructor
  · rintro ⟨entry, w, opened, walked, shape⟩
    exact ⟨w, ⟨entry, opened, walked⟩, shape⟩
  · rintro ⟨w, ⟨entry, opened, walked⟩, shape⟩
    exact ⟨entry, w, opened, walked, shape⟩

end Module

section

variable {t u : File.Tree} {layout other : CrateLayout} {names : List String}

/-- How the module of a name is declared in the module at the end of a path. -/
def DeclaredAt (t : File.Tree) (layout : CrateLayout) (above : List String) (name : String) (named : Option String)
    (body : Option (List Item)) : Prop :=
  ∃ m, Module.loadSegments t layout ("crate" :: above) = .ok m ∧ DeclaresModule m.items name named body

/-- No declaration of a module on the way has a `path` attribute. -/
def Unattributed (t : File.Tree) (layout : CrateLayout) (names : List String) : Prop :=
  ∀ above name, above ++ [name] <+: names → ∀ named body, DeclaredAt t layout above name named body → named = none

theorem Unattributed.above {last : String} (plain : Unattributed t layout (names ++ [last])) :
    Unattributed t layout names :=
  fun above name way => plain above name (way.trans (List.prefix_append names [last]))

theorem declared_at_of_walk {w : Walk} {name : String} {named : Option String} {body : Option (List Item)}
    (walked : Walk.along t layout names = .ok w) (declares : DeclaresModule w.items name named body) :
    DeclaredAt t layout names name named body :=
  ⟨_, Module.load_names_ok.mpr ⟨w, walked, rfl⟩, declares⟩

theorem declares_of_declared_at {w : Walk} {name : String} {named : Option String} {body : Option (List Item)}
    (walked : Walk.along t layout names = .ok w) (declared : DeclaredAt t layout names name named body) :
    DeclaresModule w.items name named body := by
  obtain ⟨m, loaded, declares⟩ := declared
  obtain ⟨v, again, rfl⟩ := Module.load_names_ok.mp loaded
  rw [walked] at again
  cases again
  exact declares

/-- A walk without `path` attributes looks for modules in the directory of the names that it went through. -/
theorem child_dir_of_walk {w : Walk} (walked : Walk.along t layout names = .ok w) (plain : Unattributed t layout names) :
    w.childDir = directoryBelow (directoryOf layout.entry) names := by
  induction names using List.reverseRecOn generalizing w with
  | nil =>
      obtain ⟨items, _, shape⟩ := Walk.along_nil_ok.mp walked
      rw [shape]
      rfl
  | append_singleton names last ih =>
      obtain ⟨above, reached, step⟩ := Walk.along_append_ok.mp walked
      have dir := ih reached plain.above
      rw [directory_below_append, ← dir]
      rcases Walk.descend_ok.mp step with ⟨_, _, _, shape⟩ | ⟨named, _, _, _, declares, located, _, shape⟩
      · rw [shape]
      · obtain rfl := plain names last (List.prefix_refl _) named none (declared_at_of_walk reached declares)
        rw [shape]
        exact (Walk.locate_by_name located).2

/-- Every one of some modules below a path stands in braces in the one above it. -/
def InBraces (t : File.Tree) (layout : CrateLayout) (above blocks : List String) : Prop :=
  ∀ before block, before ++ [block] <+: blocks → ∃ body, DeclaredAt t layout (above ++ before) block none (some body)

/-- The file of the nearest module on a path that does not stand in braces: the entry file, or a file that is found
by the names of the path. -/
def StandsIn (t : File.Tree) (layout : CrateLayout) (names : List String) (file : File.Path) : Prop :=
  ∃ near blocks, names = near ++ blocks ∧ InBraces t layout near blocks
    ∧ (near = [] ∧ file = layout.entry
        ∨ ∃ above last, near = above ++ [last] ∧ DeclaredAt t layout above last none none
            ∧ file = fileByName t (directoryBelow (directoryOf layout.entry) above) last)

theorem stands_in_of_walk {w : Walk} (walked : Walk.along t layout names = .ok w) (plain : Unattributed t layout names) :
    StandsIn t layout names w.file := by
  induction names using List.reverseRecOn generalizing w with
  | nil =>
      obtain ⟨items, _, shape⟩ := Walk.along_nil_ok.mp walked
      refine ⟨[], [], rfl, fun before block way => ?_, Or.inl ⟨rfl, by rw [shape]⟩⟩
      exact absurd (List.prefix_nil.mp way) (by simp)
  | append_singleton names last ih =>
      obtain ⟨above, reached, step⟩ := Walk.along_append_ok.mp walked
      have only := plain names last (List.prefix_refl _)
      rcases Walk.descend_ok.mp step with ⟨named, body, declares, shape⟩ | ⟨named, _, _, _, declares, located, _, shape⟩
      · have declared := declared_at_of_walk reached declares
        obtain rfl := only named (some body) declared
        obtain ⟨near, blocks, whole, braces, stands⟩ := ih reached plain.above
        refine ⟨near, blocks ++ [last], by rw [whole, List.append_assoc], ?_, ?_⟩
        · intro before block way
          rcases List.prefix_concat_iff.mp way with ends | inside
          · obtain ⟨rfl, single⟩ := List.append_inj' ends rfl
            obtain rfl := (List.cons.inj single).1
            exact ⟨body, by rw [← whole]; exact declared⟩
          · exact braces before block inside
        · rw [shape]
          exact stands
      · have declared := declared_at_of_walk reached declares
        obtain rfl := only named none declared
        refine ⟨names ++ [last], [], (List.append_nil _).symm, fun before block way => ?_, ?_⟩
        · exact absurd (List.prefix_nil.mp way) (by simp)
        · refine Or.inr ⟨names, last, rfl, declared, ?_⟩
          rw [shape, ← child_dir_of_walk reached plain.above]
          exact (Walk.locate_by_name located).1

/-! Two crates that agree from a module on. -/

/-- Walks that have come to the same items and look for modules in the same directory. -/
structure Walk.Alike (w v : Walk) : Prop where
  items : v.items = w.items
  childDir : v.childDir = w.childDir

/-- Two trees have the same of all files that modules without braces are looked for in on the way of some names. -/
def SameBelow (t u : File.Tree) (dir : File.Path) (names : List String) : Prop :=
  ∀ before name, before ++ [name] <+: names → ∀ path ∈ filesByName (directoryBelow dir before) name,
    (File.Look.probe path).SameIn t u ∧ (File.Look.read path).SameIn t u

/-- A step without a `path` attribute is the same in two trees that have the same of the files it looks at. -/
theorem Walk.Alike.step {w v next : Walk} {name : String} (alike : w.Alike v) (step : w.descend t name = .ok next)
    (plain : ∀ named body, DeclaresModule w.items name named body → named = none)
    (same : ∀ path ∈ filesByName w.childDir name,
      (File.Look.probe path).SameIn t u ∧ (File.Look.read path).SameIn t u) :
    ∃ next', v.descend u name = .ok next' ∧ next.Alike next'
      ∧ (DeclaresModule w.items name none none → next'.file = next.file) := by
  rcases Walk.descend_ok.mp step with ⟨named, body, declares, shape⟩ | ⟨named, file, dir, items, declares, located, read, shape⟩
  · have again : DeclaresModule v.items name named (some body) := by rw [alike.items]; exact declares
    refine ⟨_, Walk.descend_ok.mpr (Or.inl ⟨named, body, again, rfl⟩), ⟨by rw [shape], by rw [shape, alike.childDir]⟩, ?_⟩
    intro other
    cases declares.symm.trans other
  · obtain rfl := plain named none declares
    have again : DeclaresModule v.items name none none := by rw [alike.items]; exact declares
    have place := (Walk.locate_congr alike.childDir fun path member => (same path member).1).trans located
    have candidate : file ∈ filesByName w.childDir name := by
      rw [(Walk.locate_by_name located).1]
      exact file_by_name_mem t w.childDir name
    have text := (items_of_congr (same file candidate).2).trans read
    refine ⟨_, Walk.descend_ok.mpr (Or.inr ⟨none, file, dir, items, again, place, text, rfl⟩), ?_, ?_⟩
    · rw [shape]
      exact ⟨rfl, rfl⟩
    · intro
      rw [shape]

/-- Walks that are alike at a module go on alike below it. -/
theorem alike_below {front back : List String} {here there w : Walk} (reached : Walk.along t layout front = .ok here)
    (away : Walk.along u other front = .ok there) (alike : here.Alike there)
    (walked : Walk.along t layout (front ++ back) = .ok w) (plain : Unattributed t layout (front ++ back))
    (same : SameBelow t u (directoryBelow (directoryOf layout.entry) front) back) :
    ∃ v, Walk.along u other (front ++ back) = .ok v ∧ w.Alike v := by
  induction back using List.reverseRecOn generalizing w with
  | nil =>
      rw [List.append_nil] at walked ⊢
      rw [walked] at reached
      cases reached
      exact ⟨there, away, alike⟩
  | append_singleton back last ih =>
      rw [← List.append_assoc] at walked plain ⊢
      obtain ⟨above, before, step⟩ := Walk.along_append_ok.mp walked
      obtain ⟨v, behind, still⟩ := ih before plain.above fun first name way =>
        same first name (way.trans (List.prefix_append back [last]))
      have files := same back last (List.prefix_refl _)
      rw [← directory_below_below, ← child_dir_of_walk before plain.above] at files
      obtain ⟨next', step', alike', _⟩ := still.step step
        (fun named body declares => plain _ last (List.prefix_refl _) named body (declared_at_of_walk before declares)) files
      exact ⟨next', Walk.along_append_ok.mpr ⟨v, behind, step'⟩, alike'⟩

/-- Without `path` attributes a module stands in the file of the nearest module on its path that is not in braces,
and that file is found by the names of the path alone. How a module above it stands makes no difference: with the
same items there, and the same files below, the module is the same. -/
theorem module_stands_by_name {m : Module} (loaded : Module.loadSegments t layout ("crate" :: names) = .ok m)
    (plain : Unattributed t layout names) :
    StandsIn t layout names m.file
      ∧ ∀ (u : File.Tree) (other : CrateLayout) (front back : List String) (last : String) (here there : Module),
          names = front ++ (back ++ [last]) → directoryOf other.entry = directoryOf layout.entry →
          Module.loadSegments t layout ("crate" :: front) = .ok here →
          Module.loadSegments u other ("crate" :: front) = .ok there → there.items = here.items →
          Unattributed u other front → DeclaredAt t layout (front ++ back) last none none →
          SameBelow t u (directoryBelow (directoryOf layout.entry) front) (back ++ [last]) →
          Module.loadSegments u other ("crate" :: names) = .ok m := by
  obtain ⟨w, walked, shape⟩ := Module.load_names_ok.mp loaded
  refine ⟨by rw [shape]; exact stands_in_of_walk walked plain, ?_⟩
  intro u other front back last here there whole dirs hereLoaded thereLoaded items away declared same
  obtain ⟨v, reached, rfl⟩ := Module.load_names_ok.mp hereLoaded
  obtain ⟨v', reached', rfl⟩ := Module.load_names_ok.mp thereLoaded
  rw [whole, ← List.append_assoc] at walked plain
  obtain ⟨above, before, step⟩ := Walk.along_append_ok.mp walked
  have upTo : Unattributed t layout front := fun first name way => plain.above first name (way.trans (List.prefix_append _ _))
  have alike : v.Alike v' := by
    refine ⟨items, ?_⟩
    rw [child_dir_of_walk reached' away, child_dir_of_walk reached upTo, dirs]
  obtain ⟨above', behind, still⟩ := alike_below reached reached' alike before plain.above fun first name way =>
    same first name (way.trans (List.prefix_append back [last]))
  have files := same back last (List.prefix_refl _)
  rw [← directory_below_below, ← child_dir_of_walk before plain.above] at files
  obtain ⟨next, step', ended, file⟩ := still.step step
    (fun named body declares => plain _ last (List.prefix_refl _) named body (declared_at_of_walk before declares)) files
  refine Module.load_names_ok.mpr ⟨next, by rw [whole, ← List.append_assoc]; exact Walk.along_append_ok.mpr ⟨above', behind, step'⟩, ?_⟩
  rw [shape, ended.items, file (declares_of_declared_at before declared)]

end

namespace FilesSample

def layout : CrateLayout := ⟨⟨"/"⟩, "sample", ⟨"/lib.rs"⟩⟩

/-- A crate with the module `crate::a::b`, whose file is `a/b.rs`. -/
def tree (rest : List (File.Place × File.Node)) : File.Tree :=
  ⟨rest ++ [([['a']], .directory), ([['a'], "b.rs".toList], .file (.text "struct S;"))], []⟩

/-- Here `crate::a` has a file of its own. -/
def flat : File.Tree :=
  tree [([("lib.rs").toList], .file (.text "mod a;")), ([("a.rs").toList], .file (.text "mod b;"))]

/-- Here it stands in braces in the entry file. -/
def braced : File.Tree :=
  tree [([("lib.rs").toList], .file (.text "mod a \x7b mod b; \x7d"))]

end FilesSample

open FilesSample in
theorem module_below_braces : ∃ entry a m : Module,
    Module.loadSegments flat layout ["crate"] = .ok entry
      ∧ Module.loadSegments flat layout ["crate", "a"] = .ok a
      ∧ Module.loadSegments flat layout ["crate", "a", "b"] = .ok m
      ∧ StandsIn flat layout ["a", "b"] m.file
      ∧ Module.loadSegments braced layout ["crate", "a", "b"] = .ok m := by
  have entry : Module.loadSegments flat layout ["crate"] = .ok ⟨_, ⟨"/lib.rs"⟩, [.module ⟨"a", by decide +kernel⟩ none none]⟩ := rfl
  have a : Module.loadSegments flat layout ["crate", "a"] = .ok ⟨_, ⟨"/a.rs"⟩, [.module ⟨"b", by decide +kernel⟩ none none]⟩ := rfl
  have b : Module.loadSegments flat layout ["crate", "a", "b"]
      = .ok ⟨_, ⟨"/a/b.rs"⟩, [.struct ⟨⟨"S", by decide +kernel⟩, ⟨[], []⟩, .unit⟩]⟩ := rfl
  have outer : Module.loadSegments braced layout ["crate"]
      = .ok ⟨_, ⟨"/lib.rs"⟩, [.module ⟨"a", by decide +kernel⟩ none (some [.module ⟨"b", by decide +kernel⟩ none none])]⟩ := rfl
  have inner : Module.loadSegments braced layout ["crate", "a"]
      = .ok ⟨_, ⟨"/lib.rs"⟩, [.module ⟨"b", by decide +kernel⟩ none none]⟩ := rfl
  have ways {above : List String} {name : String} (way : above ++ [name] <+: ["a", "b"]) :
      above = [] ∧ name = "a" ∨ above = ["a"] ∧ name = "b" := by
    rcases above with _ | ⟨first, _ | ⟨second, more⟩⟩ <;> simp_all
  have plain : Unattributed flat layout ["a", "b"] := by
    rintro above name way named body ⟨module, loaded, declares⟩
    rcases ways way with ⟨rfl, rfl⟩ | ⟨rfl, rfl⟩
    · cases entry.symm.trans loaded
      cases declares
      rfl
    · cases a.symm.trans loaded
      cases declares
      rfl
  have away : Unattributed braced layout ["a"] := by
    rintro above name way named body ⟨module, loaded, declares⟩
    rcases ways (way.trans (List.prefix_append _ ["b"])) with ⟨rfl, rfl⟩ | ⟨rfl, rfl⟩
    · cases outer.symm.trans loaded
      cases declares
      rfl
    · simp at way
  have same : SameBelow flat braced (directoryBelow (directoryOf layout.entry) ["a"]) ["b"] := by
    intro before name way path member
    obtain ⟨rfl, rfl⟩ : before = [] ∧ name = "b" := by
      rcases before with _ | ⟨first, more⟩ <;> simp_all
    simp only [filesByName, List.mem_cons, List.not_mem_nil, or_false] at member
    rcases member with rfl | rfl
    · exact ⟨rfl, rfl⟩
    · exact ⟨rfl, rfl⟩
  have stands := module_stands_by_name b plain
  exact ⟨_, _, _, entry, a, b, stands.1,
    stands.2 braced layout ["a"] [] "b" _ _ rfl rfl a inner rfl away ⟨_, a, rfl⟩ same⟩

end Accessors
