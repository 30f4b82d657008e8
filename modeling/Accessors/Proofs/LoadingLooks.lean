import Accessors.Proofs.AgreeingLooks
import Accessors.Proofs.ModuleFiles
import Accessors.Proofs.RunReading

/-!
What loading a module looks at. Loading looks at the manifest, at the candidates for the entry file, and for every
module without braces that the walk meets at the files this module may stand in. Which files these are is told by what
the looks before them found. So whatever else there is in two trees, loading comes to the same in both if they have
the same of these files; only why one of them cannot be read may differ, because the system tells that by what it
meets on the way to it.
-/

namespace Accessors

open File (Look Reading Tree)

/-- The manifest of the crate under a directory, if it can be read as one. -/
def Manifest.under? (t : Tree) (root : File.Path) : Option Manifest :=
  (t.readText (root.join ⟨"Cargo.toml"⟩)).toOption.bind fun text => (Toml.parse text).bind Manifest.ofToml?

section

variable (t : Tree) (root : File.Path) (path : String)

/-- The path means the module of some names in the crate that is found under a directory. -/
def Aims (layout : CrateLayout) (names : List String) : Prop :=
  CrateLayout.discover t root = .ok layout ∧ Module.normalize layout path = .ok ("crate" :: names)

/-- On the way to the module of the path a walk has come to a declaration of a module without braces. -/
def Meets (w : Walk) (name : String) (named : Option String) : Prop :=
  ∃ layout names above, Aims t root path layout names ∧ above ++ [name] <+: names
    ∧ Walk.along t layout above = .ok w ∧ DeclaresModule w.items name named none

/-- The looks that the way to a module asks for. -/
inductive LooksAt : Look → Prop where
  | manifest : LooksAt (.read (root.join ⟨"Cargo.toml"⟩))
  /-- If the manifest does not name the entry file, it is looked for. -/
  | entryCandidate {manifest : Manifest} {name : File.Path} (given : Manifest.under? t root = some manifest)
      (unnamed : manifest.libPath = none) (listed : name ∈ CrateLayout.entryNames) : LooksAt (.probe (root.join name))
  | entry {layout : CrateLayout} {names : List String} (aims : Aims t root path layout names) :
      LooksAt (.read layout.entry)
  /-- A module that no attribute names a file for is looked for by its name. -/
  | candidate {w : Walk} {name : String} {file : File.Path} (meets : Meets t root path w name none)
      (listed : file ∈ filesByName w.childDir name) : LooksAt (.probe file)
  | file {w : Walk} {name : String} {named : Option String} {file dir : File.Path}
      (meets : Meets t root path w name named) (located : w.locate t name named = .ok (file, dir)) : LooksAt (.read file)

end

/-! Loading as a reading, and its looks. -/

/-- The module with the given path in the crate under a directory, with what is looked at for it. -/
def Module.loadingFrom (root : File.Path) (path : String) : Reading ResolutionError Module := do
  let layout ← (CrateLayout.discovery root).mapError (ResolutionError.moduleLoad "crate")
  let segments ← Reading.ofExcept <| (normalize layout path).mapError (ResolutionError.moduleLoad path)
  loading layout segments

theorem Module.run_loading_from (root : File.Path) (path : String) (t : Tree) :
    (loadingFrom root path).run t = loadFrom t root path := by
  unfold loadingFrom loadFrom load
  simp only [Reading.run_bind, Reading.run_map_error, Reading.run_of_except, CrateLayout.run_discovery, run_loading]

section

variable {t : Tree} {root : File.Path} {path : String} {look : Look} {layout : CrateLayout} {names : List String}

theorem looks_of_discovery (member : look ∈ (CrateLayout.discovery root).looks t) : LooksAt t root path look := by
  rcases Reading.mem_looks_bind.mp member with manifest | ⟨text, read, later⟩
  · rw [Reading.looks_text, List.mem_singleton] at manifest
    rw [manifest]
    exact .manifest
  · have given : Manifest.under? t root = (Toml.parse text).bind Manifest.ofToml? := by
      rw [Reading.run_text] at read
      rw [Manifest.under?, Outcome.to_option_some.mpr (Outcome.map_error_ok.mp read), Option.bind_some]
    cases parsed : (Toml.parse text).bind Manifest.ofToml? with
    | none => simp [parsed] at later
    | some manifest =>
        obtain ⟨packageName, libName, libPath⟩ := manifest
        cases packageName with
        | none => simp [parsed] at later
        | some packageName =>
            cases libPath with
            | some named => simp [parsed] at later
            | none =>
                simp only [parsed, Reading.mem_looks_bind, Reading.looks_first_file, Reading.looks_pure,
                  List.not_mem_nil, and_false, exists_false, or_false] at later
                obtain ⟨file, listed, rfl⟩ := Reading.mem_probes later
                obtain ⟨name, entry, rfl⟩ := List.mem_map.mp listed
                exact .entryCandidate (given.trans parsed) rfl entry

theorem looks_of_descending {w : Walk} {above : List String} {name : String} (aims : Aims t root path layout names)
    (way : above ++ [name] <+: names) (walked : Walk.along t layout above = .ok w)
    (member : look ∈ (w.descending name).looks t) : LooksAt t root path look := by
  unfold Walk.descending at member
  cases declared : w.items.findSome? (moduleDeclared name) with
  | none => simp [declared] at member
  | some found =>
      obtain ⟨named, body⟩ := found
      cases body with
      | some body => simp [declared] at member
      | none =>
          have meets : Meets t root path w name named := ⟨layout, names, above, aims, way, walked, declared⟩
          simp only [declared, Reading.mem_looks_bind, Walk.run_locating] at member
          rcases member with search | ⟨⟨file, dir⟩, located, inside⟩
          · cases named with
            | some text => simp [Walk.locating] at search
            | none =>
                simp only [Walk.locating, Reading.mem_looks_bind, Reading.looks_first_file, Reading.looks_pure,
                  List.not_mem_nil, and_false, exists_false, or_false] at search
                obtain ⟨file, listed, rfl⟩ := Reading.mem_probes search
                exact .candidate meets listed
          · simp only [readItems, Reading.mem_looks_bind, Reading.looks_text, Reading.looks_of_except,
              Reading.looks_pure, List.mem_singleton, List.not_mem_nil, and_false, exists_false, or_false] at inside
            rw [inside]
            exact .file meets located

/-- A walk looks for the modules that it meets, wherever on the way it begins. -/
theorem looks_of_walking {w : Walk} {above rest : List String} (aims : Aims t root path layout names)
    (whole : above ++ rest = names) (walked : Walk.along t layout above = .ok w)
    (member : look ∈ (w.walking rest).looks t) : LooksAt t root path look := by
  induction rest generalizing above w with
  | nil => exact absurd member List.not_mem_nil
  | cons name rest ih =>
      have onward : above ++ [name] ++ rest = names := by
        rw [List.append_assoc]
        exact whole
      rcases Reading.mem_looks_bind.mp member with here | ⟨next, step, later⟩
      · exact looks_of_descending aims ⟨rest, onward⟩ walked here
      · rw [Walk.run_descending] at step
        exact ih onward (Walk.along_append_ok.mpr ⟨w, walked, step⟩) later

/-- Loading looks at what the way to the module asks for, and at nothing else. -/
theorem looks_of_loading (member : look ∈ (Module.loadingFrom root path).looks t) : LooksAt t root path look := by
  rcases Reading.mem_looks_bind.mp member with early | ⟨layout, discovered, member⟩
  · exact looks_of_discovery early
  rcases Reading.mem_looks_bind.mp member with none | ⟨segments, normal, member⟩
  · exact absurd none List.not_mem_nil
  rw [Reading.run_map_error, CrateLayout.run_discovery] at discovered
  obtain ⟨names, rfl⟩ := Module.normalize_ok (Outcome.map_error_ok.mp normal)
  have aims : Aims t root path layout names := ⟨Outcome.map_error_ok.mp discovered, Outcome.map_error_ok.mp normal⟩
  rcases Reading.mem_looks_bind.mp member with opening | ⟨entry, opened, member⟩
  · simp only [Walk.opening, readItems, Reading.mem_looks_bind, Reading.looks_text, Reading.looks_of_except,
      Reading.looks_pure, List.mem_singleton, List.not_mem_nil, and_false, exists_false, or_false] at opening
    rw [opening]
    exact .entry aims
  rcases Reading.mem_looks_bind.mp member with walking | ⟨_, _, none⟩
  · have begun : Walk.along t layout [] = .ok entry := by
      rw [Walk.run_opening] at opened
      exact Outcome.bind_ok.mpr ⟨entry, opened, rfl⟩
    exact looks_of_walking aims (List.nil_append names) begun walking
  · exact absurd none List.not_mem_nil

end

/-! What loading comes to where its looks agree. -/

/-- The fault without the system's reason why a file cannot be read. -/
def LoadFault.withoutReason : LoadFault → LoadFault
  | .unreadable file _ => .unreadable file .notFound
  | other => other

def ResolutionError.withoutReason : ResolutionError → ResolutionError
  | .moduleLoad path fault => .moduleLoad path fault.withoutReason
  | other => other

theorem agrees_read_items (file : File.Path) : (readItems file).AgreesUpTo LoadFault.withoutReason :=
  Reading.agrees_bind (Reading.agrees_text file fun _ _ => rfl) fun _ => Reading.agrees_of_except _

theorem agrees_discovery (root : File.Path) :
    (CrateLayout.discovery root).AgreesUpTo LoadFault.withoutReason := by
  refine Reading.agrees_bind (Reading.agrees_text _ fun _ _ => rfl) fun text => ?_
  cases (Toml.parse text).bind Manifest.ofToml? with
  | none => exact Reading.agrees_of_except _
  | some manifest =>
      obtain ⟨packageName, libName, libPath⟩ := manifest
      cases packageName with
      | none => exact Reading.agrees_of_except _
      | some packageName =>
          cases libPath with
          | some named => exact Reading.agrees_pure _
          | none => exact Reading.agrees_bind (Reading.agrees_first_file _ _) fun _ => Reading.agrees_pure _

theorem agrees_descending (w : Walk) (name : String) :
    (w.descending name).AgreesUpTo LoadFault.withoutReason := by
  unfold Walk.descending
  cases w.items.findSome? (moduleDeclared name) with
  | none => exact Reading.agrees_of_except _
  | some declared =>
      obtain ⟨named, body⟩ := declared
      cases body with
      | some body => exact Reading.agrees_pure _
      | none =>
          have search : (w.locating name named).AgreesUpTo LoadFault.withoutReason := by
            cases named with
            | some text => exact Reading.agrees_pure _
            | none => exact Reading.agrees_bind (Reading.agrees_first_file _ _) fun _ => Reading.agrees_pure _
          exact Reading.agrees_bind search fun place =>
            Reading.agrees_bind (agrees_read_items place.1) fun _ => Reading.agrees_pure _

theorem agrees_walking (w : Walk) (names : List String) : (w.walking names).AgreesUpTo LoadFault.withoutReason := by
  induction names generalizing w with
  | nil => exact Reading.agrees_pure w
  | cons name rest ih => exact Reading.agrees_bind (agrees_descending w name) ih

theorem agrees_loading (root : File.Path) (path : String) :
    (Module.loadingFrom root path).AgreesUpTo ResolutionError.withoutReason := by
  refine Reading.agrees_bind (Reading.agrees_map_error (agrees_discovery root) fun _ => rfl) fun layout => ?_
  refine Reading.agrees_bind (Reading.agrees_of_except _) fun segments => ?_
  refine Reading.agrees_map_error (?_ : Reading.AgreesUpTo LoadFault.withoutReason _) fun _ => rfl
  refine Reading.agrees_bind ?_ fun entry => ?_
  · exact Reading.agrees_bind (agrees_read_items layout.entry) fun _ => Reading.agrees_pure _
  · exact Reading.agrees_bind (agrees_walking entry _) fun _ => Reading.agrees_pure _

/-- Loading depends on its looks only: it comes to the same in a tree where they give the same answers, and but for
the system's reason in a fault in a tree where they find the same. So what changes nowhere on their ways changes
nothing, and files that none of them names change at most that reason. -/
theorem loading_by_looks (t u : Tree) (root : File.Path) (path : String) :
    ((∀ look, LooksAt t root path look → look.SameIn t u) → Module.loadFrom u root path = Module.loadFrom t root path)
    ∧ ((∀ look, LooksAt t root path look → look.Agrees t u) →
        (Module.loadFrom u root path).mapError ResolutionError.withoutReason
          = (Module.loadFrom t root path).mapError ResolutionError.withoutReason)
    ∧ (u.cwd = t.cwd → (∀ look, LooksAt t root path look → ∀ place ∈ t.trail look.path, u.node? place = t.node? place) →
        Module.loadFrom u root path = Module.loadFrom t root path)
    ∧ (t.SameDirectories u →
        (∀ look, LooksAt t root path look → u.node? (t.target look.path) = t.node? (t.target look.path)) →
        (Module.loadFrom u root path).mapError ResolutionError.withoutReason
          = (Module.loadFrom t root path).mapError ResolutionError.withoutReason) := by
  have exactly : (∀ look, LooksAt t root path look → look.SameIn t u) →
      Module.loadFrom u root path = Module.loadFrom t root path := by
    intro same
    rw [← Module.run_loading_from, ← Module.run_loading_from]
    exact (Module.loadingFrom root path).depends t u fun look member => same look (looks_of_loading member)
  have nearly : (∀ look, LooksAt t root path look → look.Agrees t u) →
      (Module.loadFrom u root path).mapError ResolutionError.withoutReason
        = (Module.loadFrom t root path).mapError ResolutionError.withoutReason := by
    intro agree
    rw [← Module.run_loading_from, ← Module.run_loading_from]
    exact agrees_loading root path t u fun look member => agree look (looks_of_loading member)
  refine ⟨exactly, nearly, fun cwd same => ?_, fun directories kept => ?_⟩
  · exact exactly fun look asked => Look.same_of_trail cwd (same look asked)
  · exact nearly fun look asked => Look.agrees_of_same_directories directories (kept look asked)

namespace LooksSample

def root : File.Path := ⟨"/"⟩

def layout : CrateLayout := ⟨root, "sample", ⟨"/lib.rs"⟩⟩

/-- A crate with the module `crate::y`, whose file an attribute names by way of the directory `x`. -/
def tree (named : String) (rest : List (File.Place × File.Node)) : Tree where
  entries := (["Cargo.toml".toList], .file (.text "[package]\nname = \"sample\"\n[lib]\npath = \"lib.rs\"\n"))
    :: (["lib.rs".toList], .file (.text ("#[path = \"" ++ named ++ "\"] mod y;"))) :: rest
  cwd := []

def declared (named : String) : List Item := [.module ⟨"y", by decide +kernel⟩ (some named) none]

/-- What is looked at for the module: the manifest, the entry file and the file that is named. -/
theorem looks {named : String} {rest : List (File.Place × File.Node)} {look : Look}
    (found : CrateLayout.discover (tree named rest) root = .ok layout)
    (given : (Manifest.under? (tree named rest) root).bind Manifest.libPath ≠ none)
    (items : itemsOf (tree named rest) layout.entry = .ok (declared named))
    (asked : LooksAt (tree named rest) root "crate::y" look) :
    look ∈ [.read ⟨"/Cargo.toml"⟩, .read ⟨"/lib.rs"⟩, .read (root.join ⟨named⟩)] := by
  have aimed {other : CrateLayout} {names : List String} (aims : Aims (tree named rest) root "crate::y" other names) :
      other = layout ∧ names = ["y"] := by
    obtain ⟨discovered, normal⟩ := aims
    cases found.symm.trans discovered
    have means : Module.normalize layout "crate::y" = .ok ["crate", "y"] := rfl
    cases means.symm.trans normal
    exact ⟨rfl, rfl⟩
  have met {w : Walk} {name : String} {file : Option String} (meets : Meets (tree named rest) root "crate::y" w name file) :
      w = ⟨⟨"/lib.rs"⟩, declared named, root, root⟩ ∧ file = some named := by
    obtain ⟨other, names, above, aims, way, walked, declares⟩ := meets
    obtain ⟨rfl, rfl⟩ := aimed aims
    obtain ⟨rfl, rfl⟩ : above = [] ∧ name = "y" := by
      rcases above with _ | ⟨first, more⟩ <;> simp_all
    obtain ⟨_, read, rfl⟩ := Walk.along_nil_ok.mp walked
    cases items.symm.trans read
    cases declares
    exact ⟨rfl, rfl⟩
  cases asked with
  | manifest => exact List.mem_cons_self
  | entryCandidate known unnamed => exact absurd unnamed (by simpa [known] using given)
  | entry aims =>
      obtain ⟨rfl, _⟩ := aimed aims
      exact List.mem_cons_of_mem _ List.mem_cons_self
  | candidate meets => exact absurd (met meets).2 (by simp)
  | file meets located =>
      obtain ⟨rfl, rfl⟩ := met meets
      cases located
      exact List.mem_cons_of_mem _ (List.mem_cons_of_mem _ List.mem_cons_self)

/-- The file that is named is missing, and so is the directory on the way to it. -/
def missing : Tree := tree "x/y.rs" []

/-- Here a file has the name of that directory. -/
def blocked : Tree := tree "x/y.rs" [([['x']], .file (.text ""))]

/-- The file is there, and the way to it leads through a directory that is missing. -/
def apart : Tree := tree "x/../y.rs" [(["y.rs".toList], .file (.text "struct S;"))]

/-- Here the directory is there for the sake of another file. -/
def opened : Tree :=
  tree "x/../y.rs" [(["y.rs".toList], .file (.text "struct S;")), ([['x']], .directory),
    ([['x'], "other.rs".toList], .file (.text ""))]

/-- The file is there, in a directory that is there. -/
def plain : Tree := tree "y.rs" [(["y.rs".toList], .file (.text "struct S;"))]

/-- A file that does not parse is added to it. -/
def beside : Tree := plain.put ["z.rs".toList] (.file (.text "struct"))

def trees : List Tree := [missing, blocked, apart, opened, plain, beside]

theorem found : ∀ t ∈ trees, CrateLayout.discover t root = .ok layout := by
  have evaluated : ∀ t ∈ trees, (CrateLayout.discover t root).toOption = some layout := by
    decide +kernel
  exact fun t listed => Outcome.to_option_some.mp (evaluated t listed)

theorem load_from {t : Tree} (listed : t ∈ trees) :
    Module.loadFrom t root "crate::y" = Module.load t layout "crate::y" := by
  rw [Module.loadFrom, found t listed]
  rfl

end LooksSample

open LooksSample in
theorem loading_beside_broken_file :
    (∃ m, Module.loadFrom plain root "crate::y" = .ok m)
    ∧ (∀ look, LooksAt plain root "crate::y" look → look.SameIn plain beside ∧ look.Agrees plain beside)
    ∧ plain.SameDirectories beside
    ∧ Module.loadFrom beside root "crate::y" = Module.loadFrom plain root "crate::y"
    ∧ (Module.loadFrom beside root "crate::y").mapError ResolutionError.withoutReason
      = (Module.loadFrom plain root "crate::y").mapError ResolutionError.withoutReason := by
  have asks {look : Look} (asked : LooksAt plain root "crate::y" look) :=
    looks (found plain (by simp [trees])) (by decide +kernel) rfl asked
  have ways : ∀ look ∈ [Look.read ⟨"/Cargo.toml"⟩, .read ⟨"/lib.rs"⟩, .read (root.join ⟨"y.rs"⟩)],
      ∀ place ∈ plain.trail look.path, beside.node? place = plain.node? place := by
    decide +kernel
  have same : ∀ look, LooksAt plain root "crate::y" look → look.SameIn plain beside :=
    fun look asked => Look.same_of_trail rfl (ways look (asks asked))
  have directories : plain.SameDirectories beside := Tree.same_directories_put (by decide) (by decide +kernel)
  have agree : ∀ look, LooksAt plain root "crate::y" look → look.Agrees plain beside := by
    intro look asked
    have member := asks asked
    simp only [List.mem_cons, List.not_mem_nil, or_false] at member
    rcases member with rfl | rfl | rfl <;> exact rfl
  have kept : ∀ look, LooksAt plain root "crate::y" look →
      beside.node? (plain.target look.path) = plain.node? (plain.target look.path) := by
    intro look asked
    have member := asks asked
    simp only [List.mem_cons, List.not_mem_nil, or_false] at member
    rcases member with rfl | rfl | rfl <;> exact rfl
  obtain ⟨_, _, onWays, inFiles⟩ := loading_by_looks plain beside root "crate::y"
  exact ⟨⟨_, (load_from (by simp [trees])).trans rfl⟩, fun look asked => ⟨same look asked, agree look asked⟩, directories,
    onWays rfl fun look asked => ways look (asks asked), inFiles directories kept⟩

open LooksSample in
/-- Files that no look names change what loading comes to: one that stands in the way changes the reason in a fault,
and one with a directory of its own opens a way to the module. -/
theorem loading_changed_by_other_files :
    (∀ look, LooksAt missing root "crate::y" look → look.Agrees missing blocked)
    ∧ Module.loadFrom missing root "crate::y"
        = .error (.moduleLoad "crate::y" (.unreadable ⟨"/x/y.rs"⟩ .notFound))
    ∧ Module.loadFrom blocked root "crate::y"
        = .error (.moduleLoad "crate::y" (.unreadable ⟨"/x/y.rs"⟩ .notDirectory))
    ∧ (∀ look, LooksAt apart root "crate::y" look →
        opened.node? (apart.target look.path) = apart.node? (apart.target look.path))
    ∧ Module.loadFrom apart root "crate::y"
        = .error (.moduleLoad "crate::y" (.unreadable ⟨"/x/../y.rs"⟩ .notFound))
    ∧ ∃ m, Module.loadFrom opened root "crate::y" = .ok m := by
  refine ⟨fun look asked => ?_, (load_from (by simp [trees])).trans rfl, (load_from (by simp [trees])).trans rfl,
    fun look asked => ?_, (load_from (by simp [trees])).trans rfl, _, (load_from (by simp [trees])).trans rfl⟩
  · have member := looks (found missing (by simp [trees])) (by decide +kernel) rfl asked
    simp only [List.mem_cons, List.not_mem_nil, or_false] at member
    rcases member with rfl | rfl | rfl <;> exact rfl
  · have member := looks (found apart (by simp [trees])) (by decide +kernel) rfl asked
    simp only [List.mem_cons, List.not_mem_nil, or_false] at member
    rcases member with rfl | rfl | rfl <;> exact rfl

end Accessors
