import Accessors.Proofs.OutputOnly
import Accessors.Proofs.OutputsCommute
import Accessors.Proofs.RunReading
import Accessors.Proofs.TemplateSearch

/-!
Runs that do not disturb one another. Two runs come to the same in either order if neither puts out what the
other one looks at, or makes a directory that the other one goes through. That a directory is gone through is
enough to tie two runs together, even if nothing looks at the directory itself.
-/

namespace Accessors

open File (Path Tree)

variable {config : Config} {invocation : Invocation} {reference first second : String} {t u : Tree}
  {output : Path} {parsed parsed' : TypeReference}

/-- Putting out a file changes nothing on the way of what a run looks at, and no template. -/
def Undisturbed (t : Tree) (config : Config) (reference : String) (output : Path) : Prop :=
  (∀ look ∈ runLooks t config reference, ∀ place ∈ t.trail look.path, ¬ t.Disturbs output place)
    ∧ ¬ config.templateSource.Reads t (t.target output)

/-- Two outcomes are the same. If the directories above the output cannot be made, both say so of the same
directory, but perhaps not for the same reason. -/
def SameOutcome (t : Tree) (output : Path) (x y : Except Error Report) : Prop :=
  x = y ∨ ∃ up reason before after, (t.makeAbove output).2 = some (up, reason)
    ∧ x = .error (.io up before) ∧ y = .error (.io up after)

/-- The type that a struct is found for is named as identifiers are. -/
theorem slashless_of_found {registry : Registry} {s : ResolvedStruct}
    (found : prepare t config reference = .ok (registry, s)) (parses : TypeReference.parse reference = .ok parsed) :
    s.name = parsed.typeName ∧ '/' ∉ s.name.toList := by
  obtain ⟨_, resolved⟩ := prepare_ok.mp found
  obtain ⟨other, layout, m, parsing, _, _, resolving⟩ := struct_of_ok.mp resolved
  have named := resolved_name resolving
  rw [Except.ok.inj (parsing.symm.trans parses)] at named resolving
  refine ⟨named, ?_⟩
  rw [named]
  unfold resolveStruct at resolving
  cases lookup : Symbol.find? m.symbols parsed.typeName with
  | none =>
      rw [lookup] at resolving
      exact absurd resolving (by simp)
  | some symbol =>
      have finds : m.Finds parsed.typeName symbol.item := ⟨symbol, lookup, rfl⟩
      intro member
      rcases finds.chars '/' member with mark | continues
      · exact absurd mark (by decide)
      · exact absurd continues (by decide)

theorem prepare_undisturbed {registry : Registry} (loaded : Registry.load t config.templateSource = .ok registry)
    (written : t.Written u output) (changes : ∀ place, u.node? place ≠ t.node? place → t.Disturbs output place)
    (quiet : Undisturbed t config reference output) : prepare u config reference = prepare t config reference := by
  obtain ⟨ways, unsearched⟩ := quiet
  rw [run_looks_of_load reference loaded] at ways
  have same : ∀ look ∈ (finding config reference).looks t, look.SameIn t u := by
    intro look member
    apply File.Look.same_of_trail written.keeps.cwd
    intro place passed
    exact Decidable.byContradiction fun changed => ways look member place passed (changes place changed)
  have found : structOf u config reference = structOf t config reference := by
    rw [← run_finding, ← run_finding]
    exact (finding config reference).depends t u same
  unfold prepare
  rw [registry_kept loaded written unsearched, loaded, found]

/-- A run finds the same after another run that does not disturb it, whatever that one came to. -/
theorem prepare_after_run {registry : Registry} (loaded : Registry.load t config.templateSource = .ok registry)
    (parses : TypeReference.parse first = .ok parsed)
    (quiet : Undisturbed t config reference (plannedOutput config invocation parsed.typeName)) :
    prepare (generate config invocation first t).2 config reference = prepare t config reference := by
  cases found : prepare t config first with
  | error e => rw [generate_of_missing found]
  | ok both =>
      obtain ⟨registry', s⟩ := both
      obtain ⟨other, parsing, named⟩ := name_of_found found
      rw [← Except.ok.inj (parsing.symm.trans parses), ← named] at quiet
      have written := EmitRequest.written_of_emit ((⟨config, invocation, registry'⟩ : Run).request s) registry'
        (plannedOutput config invocation s.name) t
      have tree : (generate config invocation first t).2 = (emission config invocation registry' s t).1 := by
        rw [generate_of_found found]
      rw [tree, emission]
      exact prepare_undisturbed loaded written (fun _ => EmitRequest.disturbs_of_emit) quiet

theorem same_outcome_of_fault {x y : Option Error} (report : Report) (same : EmitRequest.SameFault t output x y) :
    SameOutcome t output (outcomeOf report x) (outcomeOf report y) := by
  rcases same with equal | ⟨up, reason, before, after, above, left, right⟩
  · rw [equal]
    exact Or.inl rfl
  · rw [left, right]
    exact Or.inr ⟨up, reason, before, after, above, rfl, rfl⟩

namespace PairSample

/-- A crate of one file, beside a file that declares a struct. -/
def treeOf (source : String) : Tree where
  entries := [
    (["Cargo.toml".toList], .file (.text "[package]\nname = \"sample\"\n[lib]\npath = \"lib.rs\"\n")),
    (["lib.rs".toList], .file (.text source)),
    (["file".toList], .file (.text "struct U;"))]
  cwd := []

def pair : Tree := treeOf "struct S; struct T;"

/-- The file of a module is named by way of the directory of another module. -/
def nested : Tree := treeOf "struct S; mod x \x7b #[path=\"../file\"] mod y; \x7d"

def configFor (outputDir : Path) : Config := ⟨⟨"/"⟩, outputDir, none⟩

def run (outputDir : Path) (reference : String) (t : Tree) : Except Error Report × Tree :=
  generate (configFor outputDir) GenerationSample.invocation reference t

def planned (outputDir : Path) (name : String) : Path :=
  plannedOutput (configFor outputDir) GenerationSample.invocation name

theorem loads (outputDir : Path) (t : Tree) :
    Registry.load t (configFor outputDir).templateSource = .ok .builtIn := by
  have source : (configFor outputDir).templateSource = .builtIn := rfl
  rw [source, Registry.load_built_in]

theorem run_eq (outputDir : Path) (reference : String) (t : Tree) :
    run outputDir reference t
      = (((⟨configFor outputDir, GenerationSample.invocation, .builtIn⟩ : Run).execute reference ⟨.idle, t⟩).1,
        ((⟨configFor outputDir, GenerationSample.invocation, .builtIn⟩ : Run).execute reference ⟨.idle, t⟩).2.tree) := by
  have source : (configFor outputDir).templateSource = .builtIn := rfl
  unfold run generate
  rw [source, Registry.load_built_in]

end PairSample

/-- Two runs with different outputs, of which neither looks at what putting out the outputs changes. -/
def Unrelated (t : Tree) (config : Config) (invocation : Invocation) (first second : String) : Prop :=
  ∃ parsed parsed', TypeReference.parse first = .ok parsed ∧ TypeReference.parse second = .ok parsed'
    ∧ plannedOutput config invocation parsed.typeName ≠ plannedOutput config invocation parsed'.typeName
    ∧ ∀ reference ∈ [first, second], ∀ name ∈ [parsed.typeName, parsed'.typeName],
        (∀ look ∈ runLooks t config reference,
            ¬ t.Disturbs (plannedOutput config invocation name) (t.target look.path))
          ∧ ¬ config.templateSource.Reads t (t.target (plannedOutput config invocation name))

theorem PairSample.unrelated {outputDir : Path} {first second path path' name name' : String} {t : Tree}
    (parsed : (TypeReference.parse first).toOption = some ⟨path, name⟩)
    (parsed' : (TypeReference.parse second).toOption = some ⟨path', name'⟩)
    (differ : planned outputDir name ≠ planned outputDir name')
    (decided : ∀ reference ∈ [first, second], ∀ look ∈ (finding (configFor outputDir) reference).looks t,
      ∀ type ∈ [name, name'], ¬ t.Disturbs (planned outputDir type) (t.target look.path)) :
    Unrelated t (configFor outputDir) GenerationSample.invocation first second := by
  refine ⟨⟨path, name⟩, ⟨path', name'⟩, Outcome.to_option_some.mp parsed, Outcome.to_option_some.mp parsed',
    differ, ?_⟩
  intro reference listed type named
  refine ⟨?_, id⟩
  rw [run_looks_of_load reference (loads outputDir t)]
  exact fun look member => decided reference listed look member type named

end Accessors
