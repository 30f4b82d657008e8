import Accessors.Proofs.ReferenceTexts
import Accessors.Proofs.RunStages

/-!
The spellings of a module path. A module of a crate may be named from `crate` on, from the name of the crate on, or
from the first of its own names on if that one means nothing else there, and every name may be written with the mark
of a raw identifier. All spellings that the reference parser accepts mean the same module, and nothing of the spelling
is left once it is known which: two runs for one type of that module are the same run.
-/

namespace Accessors

open File (Tree)

/-- The written names are the given ones, each with the mark of a raw identifier or without. -/
def Writes (written : List Ident) (names : List String) : Prop :=
  written.map (fun name => unraw name.text) = names

instance (written : List Ident) (names : List String) : Decidable (Writes written names) :=
  inferInstanceAs (Decidable (_ = _))

/-- The written names lead to the module of the given names in the crate under a directory. -/
inductive Spells (t : Tree) (root : File.Path) (names : List String) : List Ident → Prop where
  /-- From `crate` on. -/
  | absolute {first : Ident} {written : List Ident} (crate : first.text = "crate") (writes : Writes written names) :
      Spells t root names (first :: written)
  /-- From the name of the crate on. -/
  | byCrate {first : Ident} {written : List Ident}
      (crate : ∀ layout, CrateLayout.discover t root = .ok layout → unraw first.text = layout.crateName)
      (writes : Writes written names) : Spells t root names (first :: written)
  /-- From the first name of the module on. -/
  | relative {first : Ident} {written : List Ident} (plain : unraw first.text ∉ ["crate", "self", "super", "Self"])
      (other : ∀ layout, CrateLayout.discover t root = .ok layout → unraw first.text ≠ layout.crateName)
      (writes : Writes (first :: written) names) : Spells t root names (first :: written)

theorem Spells.some {t : Tree} {root : File.Path} {names : List String} {written : List Ident}
    (spells : Spells t root names written) : written ≠ [] := by
  cases spells <;> exact List.cons_ne_nil _ _

section

variable {t : Tree} {root : File.Path} {names : List String} {written written' : List Ident} {layout : CrateLayout}

/-- Names behind that of the crate mean the module of these names. -/
theorem normalize_from_crate {first : Ident}
    (crate : unraw first.text = "crate" ∨ unraw first.text = layout.crateName)
    (read : Parsing.pathText (Ident.path (first :: written)) = .ok (false, (first :: written).map .plain)) :
    Module.normalize layout (Ident.path (first :: written))
      = .ok ("crate" :: written.map fun name => unraw name.text) := by
  unfold Module.normalize
  rw [read]
  simp only [List.map_cons, List.map_map, Segment.name, if_pos crate]
  rfl

/-- Names that do not begin with the crate or a word for a module mean the module of all of them. -/
theorem normalize_from_name {first : Ident} (plain : unraw first.text ∉ ["crate", "self", "super", "Self"])
    (other : unraw first.text ≠ layout.crateName)
    (read : Parsing.pathText (Ident.path (first :: written)) = .ok (false, (first :: written).map .plain)) :
    Module.normalize layout (Ident.path (first :: written))
      = .ok ("crate" :: (first :: written).map fun name => unraw name.text) := by
  simp only [List.mem_cons, List.not_mem_nil, or_false, not_or] at plain
  unfold Module.normalize
  rw [read]
  simp only [List.map_cons, List.map_map, Segment.name, plain, other, or_false, if_false]
  rfl

/-- A spelling that is read means the module from `crate` on. -/
theorem normalize_of_spells (spells : Spells t root names written) (found : CrateLayout.discover t root = .ok layout)
    (read : Parsing.pathText (Ident.path written) = .ok (false, written.map .plain)) :
    Module.normalize layout (Ident.path written) = .ok ("crate" :: names) := by
  cases spells with
  | absolute crate writes =>
      rw [normalize_from_crate (Or.inl (by rw [crate]; rfl)) read, writes]
  | byCrate crate writes => rw [normalize_from_crate (Or.inr (crate layout found)) read, writes]
  | relative plain other writes => rw [normalize_from_name plain (other layout found) read, writes]

/-- Whatever the spelling, the module that is loaded is the same, or the error is. -/
theorem load_of_spells (spells : Spells t root names written) (found : CrateLayout.discover t root = .ok layout)
    {text name : String} (parses : TypeReference.parse text = .ok ⟨Ident.path written, name⟩) :
    Module.load t layout (Ident.path written) = Module.loadSegments t layout ("crate" :: names) := by
  obtain ⟨parsed, read⟩ := TypeReference.path_of_parse parses
  obtain ⟨rfl, _⟩ := Parsing.names_of_path_text spells.some read
  rw [Module.load, normalize_of_spells spells found read]
  rfl

theorem run_stages_of_spells (r : Run) (state : RunState) {text name : String}
    (spells : Spells t r.config.crateRoot names written)
    (parses : TypeReference.parse text = .ok ⟨Ident.path written, name⟩) :
    (r.stages text).run.run ⟨state, t⟩
      = match CrateLayout.discover t r.config.crateRoot with
        | .error fault => (.error (.resolution (.moduleLoad "crate" fault)), ⟨.referenceParsed, t⟩)
        | .ok layout =>
            match Module.loadSegments t layout ("crate" :: names) with
            | .error fault => (.error (.resolution fault), ⟨.referenceParsed, t⟩)
            | .ok m =>
                match resolveStruct t layout m name with
                | .error fault => (.error (.resolution fault), ⟨.moduleLoaded, t⟩)
                | .ok s => (r.emit s).run.run ⟨.typeResolved, t⟩ := by
  unfold Run.stages
  simp only [Stage.run_bind, Stage.run_enter, Stage.run_tree, Stage.run_of_except, parses, Outcome.map_error_of_ok]
  cases found : CrateLayout.discover t r.config.crateRoot with
  | error fault => rfl
  | ok layout =>
      simp only [Outcome.map_error_of_ok, load_of_spells spells found parses]
      cases Module.loadSegments t layout ("crate" :: names) with
      | error fault => rfl
      | ok m =>
          simp only [Outcome.map_error_of_ok]
          cases resolveStruct t layout m name <;> rfl

/-- Two references that the parser accepts, for one type of one module in two spellings, give the same run in every
state: the same report or error, the same state, and the same files. -/
theorem runs_of_spellings (config : Config) (invocation : Invocation) {first second name : String}
    (spells : Spells t config.crateRoot names written) (spells' : Spells t config.crateRoot names written')
    (parses : TypeReference.parse first = .ok ⟨Ident.path written, name⟩)
    (parses' : TypeReference.parse second = .ok ⟨Ident.path written', name⟩) :
    generate config invocation first t = generate config invocation second t
      ∧ ∀ (registry : Registry) (state : RunState),
          (⟨config, invocation, registry⟩ : Run).execute first ⟨state, t⟩
            = (⟨config, invocation, registry⟩ : Run).execute second ⟨state, t⟩ := by
  have executions (registry : Registry) (state : RunState) :
      (⟨config, invocation, registry⟩ : Run).execute first ⟨state, t⟩
        = (⟨config, invocation, registry⟩ : Run).execute second ⟨state, t⟩ := by
    have stages := run_stages_of_spells ⟨config, invocation, registry⟩ state spells parses
    have stages' := run_stages_of_spells ⟨config, invocation, registry⟩ state spells' parses'
    unfold Run.execute
    rw [stages, stages']
  refine ⟨?_, executions⟩
  unfold generate
  cases Registry.load t config.templateSource with
  | error cause => rfl
  | ok registry =>
      simp only
      rw [executions registry .idle]

end

namespace SpellingSample

/-- A package with a hyphen in its name, and a module with a reserved word for its name. -/
def tree : Tree where
  entries := [
    (["Cargo.toml".toList], .file (.text "[package]\nname = \"my-crate\"\n[lib]\npath = \"lib.rs\"\n")),
    (["lib.rs".toList], .file (.text "mod r#type \x7b mod inner \x7b struct S; \x7d \x7d"))]
  cwd := []

def config : Config := ⟨⟨"/"⟩, ⟨"/out"⟩, none⟩

def layout : CrateLayout := ⟨⟨"/"⟩, "my_crate", ⟨"/lib.rs"⟩⟩

def crate : Ident := ⟨"crate", by decide +kernel⟩
def own : Ident := ⟨"my_crate", by decide +kernel⟩
def outer : Ident := ⟨"r#type", by decide +kernel⟩
def inner : Ident := ⟨"inner", by decide +kernel⟩
def innerRaw : Ident := ⟨"r#inner", by decide +kernel⟩

def names : List String := ["type", "inner"]

theorem found : CrateLayout.discover tree config.crateRoot = .ok layout := by
  have evaluated : (CrateLayout.discover tree config.crateRoot).toOption = some layout := by decide +kernel
  exact Outcome.to_option_some.mp evaluated

theorem absolute : Spells tree config.crateRoot names [crate, outer, inner] := .absolute rfl (by decide +kernel)

theorem by_crate : Spells tree config.crateRoot names [own, outer, innerRaw] := by
  refine .byCrate (fun other known => ?_) (by decide +kernel)
  cases found.symm.trans known
  decide +kernel

theorem relative : Spells tree config.crateRoot names [outer, innerRaw] := by
  refine .relative (by decide +kernel) (fun other known => ?_) (by decide +kernel)
  cases found.symm.trans known
  decide +kernel

end SpellingSample

open SpellingSample in
theorem runs_of_spellings_of_sample :
    Spells tree config.crateRoot names [crate, outer, inner]
    ∧ Spells tree config.crateRoot names [own, outer, innerRaw]
    ∧ Spells tree config.crateRoot names [outer, innerRaw]
    ∧ (∃ s, structOf tree config "crate::r#type::inner.S" = .ok s ∧ s.modulePath = "crate::type::inner")
    ∧ generate config GenerationSample.invocation "crate::r#type::inner.S" tree
      = generate config GenerationSample.invocation "my_crate::r#type::r#inner.S" tree
    ∧ generate config GenerationSample.invocation "crate::r#type::inner.S" tree
      = generate config GenerationSample.invocation "r#type::r#inner.S" tree := by
  have first : TypeReference.parse "crate::r#type::inner.S" = .ok ⟨Ident.path [crate, outer, inner], "S"⟩ :=
    Outcome.to_option_some.mp (by decide +kernel)
  have second : TypeReference.parse "my_crate::r#type::r#inner.S" = .ok ⟨Ident.path [own, outer, innerRaw], "S"⟩ :=
    Outcome.to_option_some.mp (by decide +kernel)
  have third : TypeReference.parse "r#type::r#inner.S" = .ok ⟨Ident.path [outer, innerRaw], "S"⟩ :=
    Outcome.to_option_some.mp (by decide +kernel)
  have declared : ((structOf tree config "crate::r#type::inner.S").toOption.map ResolvedStruct.modulePath)
      = some "crate::type::inner" := by
    decide +kernel
  obtain ⟨s, resolved, path⟩ := Option.map_eq_some_iff.mp declared
  exact ⟨absolute, by_crate, relative, ⟨s, Outcome.to_option_some.mp resolved, path⟩,
    (runs_of_spellings config GenerationSample.invocation absolute by_crate first second).1,
    (runs_of_spellings config GenerationSample.invocation absolute relative first third).1⟩

end Accessors
