import Accessors.Config
import Accessors.Crate.Module
import Accessors.Proofs.Outcome

/-!
The layers of the settings. What the caller overrides comes before the keys of the settings file in effect, and these
before the defaults. The settings file is the one that the caller gives, or else the one that the root of the crate
holds, which is looked for only when the root is known. A root that such a file names comes too late, and this is
all that the layers miss.
-/

namespace Accessors

open File (Path Tree)

/-- What a settings file says, with its paths as they are written. -/
def ConfigFile.Says (t : Tree) (file : Path) (written : ConfigFile) : Prop :=
  ∃ text document, t.readText file = .ok text ∧ Toml.parse text = some document
    ∧ ConfigFile.ofToml? document = some written

/-- A settings file that was read: where it is, and what it says. -/
structure SettingsFile where
  file : Path
  written : ConfigFile

/-- The directory that a key of a settings file names. -/
def SettingsFile.names (s : SettingsFile) (key : ConfigFile → Option Path) : Option Path :=
  (key s.written).map (directoryOf s.file).join

/-- The settings file in effect with a crate root. -/
inductive InEffect (t : Tree) (o : Overrides) (cwd root : Path) : Option SettingsFile → Prop where
  /-- The one that the caller gives. -/
  | given {file : Path} {written : ConfigFile} (chosen : o.configFile = some file)
      (tells : ConfigFile.Says t (cwd.join file) written) : InEffect t o cwd root (some ⟨cwd.join file, written⟩)
  /-- Otherwise the one that the crate root holds. -/
  | found {written : ConfigFile} (unchosen : o.configFile = none)
      (there : t.isFile (root.join ConfigFile.fileName) = true)
      (tells : ConfigFile.Says t (root.join ConfigFile.fileName) written) :
      InEffect t o cwd root (some ⟨root.join ConfigFile.fileName, written⟩)
  | absent (unchosen : o.configFile = none) (missing : t.isFile (root.join ConfigFile.fileName) = false) :
      InEffect t o cwd root none

/-- The nearest directory that has the marker of a crate, from a directory upwards. -/
inductive NearestCrate (t : Tree) : Path → Path → Prop where
  | here {dir : Path} (marked : t.isFile (dir.join crateMarker) = true) : NearestCrate t dir dir
  | above {start next dir : Path} (unmarked : t.isFile (start.join crateMarker) = false)
      (up : start.parent? = some next) (nearest : NearestCrate t next dir) : NearestCrate t start dir

/-- The value of the highest layer above the default: the override, or the key of the settings file. -/
def highest (cwd : Path) (override : Option Path) (file : Option SettingsFile) (key : ConfigFile → Option Path) :
    Option Path :=
  (override.map cwd.join).or (file.bind (·.names key))

/-- A crate root is the value of its highest layer, of which the default is the nearest crate. -/
def RootLayered (t : Tree) (o : Overrides) (cwd : Path) (file : Option SettingsFile) (root : Path) : Prop :=
  (∀ dir, highest cwd o.crateRoot file (·.crateRoot) = some dir → root = dir)
    ∧ (highest cwd o.crateRoot file (·.crateRoot) = none → NearestCrate t cwd root)

section

variable {t : Tree} {o : Overrides} {cwd start dir root file : Path} {c : Config} {settings : ConfigFile}

theorem ConfigFile.load_ok : ConfigFile.load t file = .ok settings
    ↔ ∃ written, ConfigFile.Says t file written ∧ settings = written.readFrom (directoryOf file) := by
  unfold ConfigFile.load
  constructor
  · intro loaded
    obtain ⟨text, read, rest⟩ := Outcome.bind_ok.mp loaded
    split at rest
    · next written parsed =>
        obtain ⟨document, parses, shape⟩ := Option.bind_eq_some_iff.mp parsed
        cases rest
        exact ⟨written, ⟨text, document, Outcome.map_error_ok.mp read, parses, shape⟩, rfl⟩
    · cases rest
  · rintro ⟨written, ⟨text, document, read, parses, shape⟩, rfl⟩
    refine Outcome.bind_ok.mpr ⟨text, Outcome.map_error_ok.mpr read, ?_⟩
    simp only [Option.bind_eq_some_iff.mpr ⟨document, parses, shape⟩]
    rfl

/-- The search upwards comes to the nearest crate, however far it goes. -/
theorem nearest_of_rounds {rounds : Nat}
    (found : (Path.ancestorRounds rounds start).find? (fun dir => t.isFile (dir.join crateMarker)) = some dir) :
    NearestCrate t start dir := by
  induction rounds generalizing start with
  | zero =>
      obtain ⟨marked, rfl⟩ : t.isFile (start.join crateMarker) = true ∧ start = dir := by
        simpa [Path.ancestorRounds] using found
      exact .here marked
  | succ rounds ih =>
      unfold Path.ancestorRounds at found
      cases marked : t.isFile (start.join crateMarker) with
      | true =>
          split at found
          all_goals
            rw [List.find?_cons_of_pos (by simpa using marked)] at found
            cases found
            exact .here marked
      | false =>
          split at found
          · next up =>
              rw [List.find?_cons_of_neg (by simp [marked])] at found
              exact .above marked up (ih found)
          · rw [List.find?_cons_of_neg (by simp [marked])] at found
            cases found

theorem nearest_of_find_crate_root (found : findCrateRoot t start = .ok dir) : NearestCrate t start dir := by
  unfold findCrateRoot at found
  split at found
  · next nearest =>
      cases found
      exact nearest_of_rounds nearest
  · cases found

/-- The settings file of a crate root is in effect if none is given. -/
theorem in_effect_of_file_of_root (cwd : Path) (unchosen : o.configFile = none)
    (loaded : Config.fileOfRoot t root = .ok settings) :
    ∃ file, InEffect t o cwd root file ∧ settings.outputDir = file.bind (·.names (·.outputDir))
      ∧ settings.templatesDir = file.bind (·.names (·.templatesDir)) := by
  unfold Config.fileOfRoot at loaded
  simp only at loaded
  split at loaded
  · next there =>
      obtain ⟨written, tells, rfl⟩ := ConfigFile.load_ok.mp loaded
      exact ⟨_, .found unchosen there tells, rfl, rfl⟩
  · next missing =>
      cases loaded
      exact ⟨none, .absent unchosen (by simpa using missing), rfl, rfl⟩

/-- The output and template directories that settings have by their layers. -/
def DirsLayered (o : Overrides) (cwd : Path) (file : Option SettingsFile) (c : Config) : Prop :=
  c.outputDir = (highest cwd o.outputDir file (·.outputDir)).getD cwd
    ∧ c.templateDir = highest cwd o.templateDir file (·.templatesDir)

/-- With a file that the caller gives all settings are layered. -/
theorem resolved_with_file (chosen : o.configFile = some file) (resolved : Config.resolve t o cwd = .ok c) :
    ∃ written, ConfigFile.Says t (cwd.join file) written
      ∧ RootLayered t o cwd (some ⟨cwd.join file, written⟩) c.crateRoot
      ∧ DirsLayered o cwd (some ⟨cwd.join file, written⟩) c := by
  simp only [Config.resolve, chosen, map_eq_pure_bind, bind_assoc, pure_bind] at resolved
  obtain ⟨settings, loaded, rest⟩ := Outcome.bind_ok.mp resolved
  obtain ⟨written, tells, rfl⟩ := ConfigFile.load_ok.mp loaded
  refine ⟨written, tells, ?_⟩
  simp only [Option.bind_some] at rest
  split at rest
  · next root _ above =>
      obtain rfl := Outcome.pure_ok.mp rest
      exact ⟨⟨by simp [highest, above], by simp [highest, above]⟩, rfl, rfl⟩
  · next root above key =>
      obtain rfl := Outcome.pure_ok.mp rest
      have named : SettingsFile.names ⟨cwd.join file, written⟩ (·.crateRoot) = some root := key
      exact ⟨⟨by simp [highest, above, named], by simp [highest, above, named]⟩, rfl, rfl⟩
  · next above key =>
      obtain ⟨root, found, shape⟩ := Outcome.bind_ok.mp rest
      obtain rfl := Outcome.pure_ok.mp shape
      have unnamed : SettingsFile.names ⟨cwd.join file, written⟩ (·.crateRoot) = none := key
      have nearest := nearest_of_find_crate_root found
      exact ⟨⟨by simp [highest, above, unnamed], fun _ => nearest⟩, rfl, rfl⟩

/-- Without one the root is layered but for what the file in it says. -/
theorem resolved_without_file (unchosen : o.configFile = none) (resolved : Config.resolve t o cwd = .ok c) :
    ∃ file, InEffect t o cwd c.crateRoot file ∧ RootLayered t o cwd none c.crateRoot ∧ DirsLayered o cwd file c := by
  simp only [Config.resolve, unchosen, pure_bind, Option.bind_none] at resolved
  split at resolved
  · next root _ above =>
      obtain ⟨settings, loaded, shape⟩ := Outcome.bind_ok.mp resolved
      obtain ⟨file, effect, output, templates⟩ := in_effect_of_file_of_root cwd unchosen loaded
      obtain rfl := Outcome.pure_ok.mp shape
      refine ⟨file, effect, ⟨by simp [highest, above], by simp [highest, above]⟩, ?_, ?_⟩
      · simp only [highest, output]
      · simp only [highest, templates]
  · next _ _ _ absent => cases absent
  · next above _ =>
      obtain ⟨root, found, rest⟩ := Outcome.bind_ok.mp resolved
      obtain ⟨settings, loaded, shape⟩ := Outcome.bind_ok.mp rest
      obtain ⟨file, effect, output, templates⟩ := in_effect_of_file_of_root cwd unchosen loaded
      obtain rfl := Outcome.pure_ok.mp shape
      have nearest := nearest_of_find_crate_root found
      refine ⟨file, effect, ⟨by simp [highest, above], fun _ => nearest⟩, ?_, ?_⟩
      · simp only [highest, output]
      · simp only [highest, templates]

/-- Resolved settings take each value from its highest layer, of which the middle one is the settings file in effect.
For the crate root this holds exactly if no file that was found in it names another root: the nearest crate stays the
root then. -/
theorem settings_layered_iff (resolved : Config.resolve t o cwd = .ok c) :
    ∃ file, InEffect t o cwd c.crateRoot file ∧ DirsLayered o cwd file c
      ∧ (o.configFile = none → o.crateRoot = none → NearestCrate t cwd c.crateRoot)
      ∧ (RootLayered t o cwd file c.crateRoot ↔ (o.configFile = none → o.crateRoot = none →
          ∀ dir, file.bind (·.names (·.crateRoot)) = some dir → c.crateRoot = dir)) := by
  cases given : o.configFile with
  | some path =>
      obtain ⟨written, tells, root, dirs⟩ := resolved_with_file given resolved
      exact ⟨_, .given given tells, dirs, by simp, by simp [root]⟩
  | none =>
      obtain ⟨file, effect, root, dirs⟩ := resolved_without_file given resolved
      refine ⟨file, effect, dirs, fun _ above => root.2 (by simp [highest, above]), ?_, ?_⟩
      · intro layered _ above dir named
        exact layered.1 dir (by simp [highest, above, named])
      · intro kept
        cases above : o.crateRoot with
        | some path =>
            have top (file : Option SettingsFile) : highest cwd o.crateRoot file (·.crateRoot) = some (cwd.join path) := by
              simp [highest, above]
            rw [RootLayered, top] at root ⊢
            exact root
        | none =>
            refine ⟨fun dir top => kept rfl above dir ?_, fun _ => root.2 (by simp [highest, above])⟩
            simpa [highest, above] using top

end

namespace SettingsSample

/-- A directory with a manifest and a settings file. -/
def tree (settings : String) : Tree :=
  ⟨[([['c']], .directory), ([['c'], "Cargo.toml".toList], .file (.text "")),
    ([['c'], "accessor-gen.toml".toList], .file (.text settings))], []⟩

/-- A settings file that is given, and a template directory instead of what it says. -/
def given : Overrides := ⟨some ⟨"accessor-gen.toml"⟩, none, none, some ⟨"b"⟩⟩

def nothing : Overrides := ⟨none, none, none, none⟩

end SettingsSample

open SettingsSample in
/-- The file that is given names a crate root, which is taken, and a template directory, which is not. -/
theorem settings_of_sample : ∃ c file,
    Config.resolve (tree "crate_root = \"r\"\n[templates]\ndir = \"a\"") given ⟨"/c"⟩ = .ok c
      ∧ InEffect (tree "crate_root = \"r\"\n[templates]\ndir = \"a\"") given ⟨"/c"⟩ c.crateRoot file
      ∧ DirsLayered given ⟨"/c"⟩ file c
      ∧ RootLayered (tree "crate_root = \"r\"\n[templates]\ndir = \"a\"") given ⟨"/c"⟩ file c.crateRoot
      ∧ c = ⟨⟨"/c/r"⟩, ⟨"/c"⟩, some ⟨"/c/b"⟩⟩ := by
  have resolved : Config.resolve (tree "crate_root = \"r\"\n[templates]\ndir = \"a\"") given ⟨"/c"⟩
      = .ok ⟨⟨"/c/r"⟩, ⟨"/c"⟩, some ⟨"/c/b"⟩⟩ := Outcome.to_option_some.mp (by decide +kernel)
  obtain ⟨file, effect, dirs, _, root⟩ := settings_layered_iff resolved
  exact ⟨_, file, resolved, effect, dirs, root.mpr (fun unchosen => absurd unchosen (by decide)), rfl⟩

open SettingsSample in
/-- A file that is found in the crate root names another one, which is not taken. -/
theorem root_of_found_file_ignored : ∃ c file,
    Config.resolve (tree "crate_root = \"r\"") nothing ⟨"/c"⟩ = .ok c
      ∧ InEffect (tree "crate_root = \"r\"") nothing ⟨"/c"⟩ c.crateRoot (some file)
      ∧ highest ⟨"/c"⟩ nothing.crateRoot (some file) (·.crateRoot) = some ⟨"/c/r"⟩ ∧ c.crateRoot = ⟨"/c"⟩
      ∧ ¬ RootLayered (tree "crate_root = \"r\"") nothing ⟨"/c"⟩ (some file) c.crateRoot := by
  have resolved : Config.resolve (tree "crate_root = \"r\"") nothing ⟨"/c"⟩ = .ok ⟨⟨"/c"⟩, ⟨"/c"⟩, none⟩ :=
    Outcome.to_option_some.mp (by decide +kernel)
  have parsed : (Toml.parse "crate_root = \"r\"").bind ConfigFile.ofToml? = some ⟨some ⟨"r"⟩, none, none⟩ := by decide +kernel
  obtain ⟨document, parses, tells⟩ := Option.bind_eq_some_iff.mp parsed
  have effect : InEffect (tree "crate_root = \"r\"") nothing ⟨"/c"⟩ ⟨"/c"⟩ _ :=
    .found rfl (by decide +kernel) ⟨_, document, Outcome.to_option_some.mp (by decide +kernel), parses, tells⟩
  have named : highest ⟨"/c"⟩ nothing.crateRoot
      (some ⟨Path.join ⟨"/c"⟩ ConfigFile.fileName, ⟨some ⟨"r"⟩, none, none⟩⟩) (·.crateRoot) = some ⟨"/c/r"⟩ := by decide +kernel
  refine ⟨_, _, resolved, effect, named, rfl, fun layered => ?_⟩
  exact absurd (layered.1 _ named) (by decide)

end Accessors
