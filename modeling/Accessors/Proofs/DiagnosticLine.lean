import Accessors.CommandLine.Command
import Accessors.Proofs.ErrorNames

/-!
The diagnostic of a command that fails. No name in it breaks the line by itself: it is broken exactly by the reference,
which is shown as it was given, or by a text that comes from elsewhere.
-/

namespace Accessors

open Text (OneLine)

/-- With the built-in templates a reference that is none is the error of a run. -/
theorem generate_malformed {config : Config} {reference : String} {cause : MalformedReference}
    (builtIn : config.templateDir = none) (malformed : TypeReference.parse reference = .error cause)
    (invocation : Invocation) (t : File.Tree) :
    generate config invocation reference t = (.error (.usage cause), t) := by
  have source : config.templateSource = .builtIn := by rw [Config.templateSource, builtIn]
  rw [generate_eq, prepare, source, Registry.load_built_in, structOf, malformed]
  rfl

namespace CommandLine

/-- What stands in front of the chain of an error: the reference, once generation has begun. -/
def opening : Option String → String
  | none => "Error: "
  | some reference => "Error: generating accessors for " ++ reference ++ ": "

namespace Ending

/-- The diagnostic with the words of a library where it is a library that finds fault. -/
def diagnosticWith (told : String) : Ending → Option String
  | failed begun e => some (opening begun ++ e.chainWith told)
  | _ => none

theorem diagnostic_with_own (ending : Ending) : ∃ told, ending.diagnosticWith told = ending.diagnostic? := by
  cases ending with
  | failed begun e =>
      obtain ⟨told, same⟩ := e.chain_with_own
      refine ⟨told, ?_⟩
      rw [diagnosticWith, same]
      cases begun <;> rfl
  | _ => exact ⟨"", rfl⟩

end Ending

/-- Before generation begins nothing is said of a name but of those of the variables. -/
theorem prepare_names {t : File.Tree} {settings : List (Setting × String)} {cwd : File.Path} {e : Error}
    (failed : prepare t settings cwd = .error e) : ∀ name ∈ e.names, OneLine name := by
  unfold prepare at failed
  rcases Outcome.bind_error.mp failed with missing | ⟨invocation, _, failed⟩
  · obtain ⟨cause, absent, rfl⟩ := Outcome.map_error_error.mp missing
    have given : OneLine sourceFileVariable ∧ OneLine packageVariable := by decide
    unfold Invocation.ofValues at absent
    split at absent
    · cases absent
    · obtain rfl := Except.error.inj absent
      simpa [Error.names] using given.1
    · obtain rfl := Except.error.inj absent
      simpa [Error.names] using given.2
  · rcases Outcome.bind_error.mp failed with unresolved | ⟨config, _, ended⟩
    · obtain ⟨cause, _, rfl⟩ := Outcome.map_error_error.mp unresolved
      simp [Error.names]
    · cases ended

/-- Why a command ends that asks for the accessors of a type: what generation needs cannot be had, or generation itself
fails, and then the reference is named. -/
inductive Fails (t : File.Tree) (settings : List (Setting × String)) (reference : String) : Option String → Error → Prop where
  | before {e : Error} (failed : prepare t settings t.cwdPath = .error e) : Fails t settings reference none e
  | during {invocation : Invocation} {config : Config} {e : Error}
      (prepared : prepare t settings t.cwdPath = .ok (invocation, config))
      (failed : (generate config invocation reference t).1 = .error e) : Fails t settings reference (some reference) e

/-- Generation succeeds. -/
def Generates (t : File.Tree) (settings : List (Setting × String)) (reference : String) (report : Report) : Prop :=
  ∃ invocation config, prepare t settings t.cwdPath = .ok (invocation, config)
    ∧ (generate config invocation reference t).1 = .ok report

section

variable {env : String → Option String} {args : List String} {reference : String}
  {settings : List (Setting × String)} {verbosity : Nat} {t : File.Tree}

theorem Fails.not_generates {begun : Option String} {e : Error} (fails : Fails t settings reference begun e)
    (report : Report) : ¬ Generates t settings reference report := by
  rintro ⟨invocation, config, prepared, done⟩
  cases fails with
  | before failed =>
      rw [failed] at prepared
      cases prepared
  | during prepared' failed =>
      rw [prepared'] at prepared
      cases prepared
      rw [failed] at done
      cases done

/-- How a command ends whose arguments are accepted. -/
theorem run_of_accepted (accepted : request env args = .ok (.generate reference settings verbosity)) (t : File.Tree) :
    (∃ report, Generates t settings reference report ∧ (run env args t).1 = .generated report)
      ∨ ∃ begun e, Fails t settings reference begun e ∧ (run env args t).1 = .failed begun e := by
  unfold run
  rw [accepted]
  simp only
  cases prepared : prepare t settings t.cwdPath with
  | error e => exact Or.inr ⟨none, e, .before prepared, rfl⟩
  | ok needed =>
      obtain ⟨invocation, config⟩ := needed
      cases generated : generate config invocation reference t with
      | mk outcome u =>
          have outcomes : (generate config invocation reference t).1 = outcome := by rw [generated]
          cases outcome with
          | error e => exact Or.inr ⟨some reference, e, .during prepared outcomes, by simp only [generated]⟩
          | ok report => exact Or.inl ⟨report, ⟨invocation, config, prepared, outcomes⟩, by simp only [generated]⟩

/-- The line is broken by the reference, once it is named, or by what the error shows from elsewhere. -/
theorem Fails.one_line_iff {begun : Option String} {e : Error} (fails : Fails t settings reference begun e)
    (told : String) :
    OneLine (opening begun ++ e.chainWith told)
      ↔ (∀ named ∈ begun, OneLine named) ∧ ∀ text ∈ e.shown told, OneLine text := by
  have words : OneLine "Error: " ∧ OneLine "Error: generating accessors for " ∧ OneLine ": " := by decide
  rw [Text.one_line_append, e.one_line_iff]
  cases fails with
  | before failed =>
      constructor
      · rintro ⟨_, _, shown⟩
        exact ⟨by simp, shown⟩
      · rintro ⟨_, shown⟩
        exact ⟨words.1, prepare_names failed, shown⟩
  | during prepared failed =>
      have opened : OneLine (opening (some reference)) ↔ OneLine reference := by
        unfold opening
        simp [words]
      rw [opened]
      constructor
      · rintro ⟨line, _, shown⟩
        exact ⟨by simpa using line, shown⟩
      · rintro ⟨line, shown⟩
        have named : OneLine reference := line reference rfl
        exact ⟨named, generate_names named failed, shown⟩

/-- A command whose arguments are accepted exits with 0 exactly if generation succeeds, and else with 1 and a
diagnostic, which is the chain of the error. Whatever the words of libraries are, the diagnostic is one line exactly if
the reference is, once generation has begun, and the paths, written types, subjects and words are that are shown. -/
theorem diagnostic_line_iff (accepted : request env args = .ok (.generate reference settings verbosity))
    (t : File.Tree) :
    ((run env args t).1.exitCode = 0 ↔ ∃ report, Generates t settings reference report)
      ∧ ((run env args t).1.exitCode ≠ 0 →
        (run env args t).1.exitCode = 1
          ∧ ∃ begun e, Fails t settings reference begun e ∧ (run env args t).1 = .failed begun e
            ∧ ∀ told, (run env args t).1.diagnosticWith told = some (opening begun ++ e.chainWith told)
              ∧ (OneLine (opening begun ++ e.chainWith told)
                ↔ (∀ named ∈ begun, OneLine named) ∧ ∀ text ∈ e.shown told, OneLine text)) := by
  rcases run_of_accepted accepted t with ⟨report, generates, ended⟩ | ⟨begun, e, fails, ended⟩
  · rw [ended]
    constructor
    · exact iff_of_true rfl ⟨report, generates⟩
    · intro nonzero
      exact absurd rfl nonzero
  · rw [ended]
    constructor
    · apply iff_of_false
      · intro zero
        cases zero
      · rintro ⟨report, generates⟩
        exact fails.not_generates report generates
    · intro _
      exact ⟨rfl, begun, e, fails, rfl, fun told => ⟨rfl, fails.one_line_iff told⟩⟩

end

namespace LineSample

/-- A crate without sources, in the working directory. -/
def tree : File.Tree where
  entries := [(["Cargo.toml".toList], .file (.text "[package]\nname = \"app\"\n"))]
  cwd := []

def env : String → Option String
  | "ACCESSOR_GEN_FILE" => some "lib.rs"
  | "ACCESSOR_GEN_PACKAGE" => some "app"
  | _ => none

def settings : List (Setting × String) := [(.file, "lib.rs"), (.package, "app")]

theorem prepared : prepare tree settings tree.cwdPath = .ok (⟨⟨"lib.rs"⟩, "app"⟩, ⟨⟨"/"⟩, ⟨"/"⟩, none⟩) :=
  Outcome.to_option_some.mp (by decide +kernel)

theorem ended {reference : String} {cause : MalformedReference}
    (accepted : request env [reference] = .ok (.generate reference settings 0))
    (malformed : TypeReference.parse reference = .error cause) :
    (run env [reference] tree).1 = .failed (some reference) (.usage cause) := by
  unfold run
  rw [accepted]
  simp only [prepared]
  rw [generate_malformed rfl malformed]

theorem accepted_plain : request env ["S"] = .ok (.generate "S" settings 0) :=
  Outcome.to_option_some.mp (by decide +kernel)

theorem malformed_plain : TypeReference.parse "S" = .error ⟨"S", .noDot⟩ := by rfl

theorem accepted_broken : request env ["a\nb"] = .ok (.generate "a\nb" settings 0) :=
  Outcome.to_option_some.mp (by decide +kernel)

theorem malformed_broken : TypeReference.parse "a\nb" = .error ⟨"a\nb", .noDot⟩ := by rfl

end LineSample

open LineSample in
theorem diagnostic_of_sample_one_line :
    request env ["S"] = .ok (.generate "S" settings 0) ∧ (run env ["S"] tree).1.exitCode ≠ 0
      ∧ ∃ line, (run env ["S"] tree).1.diagnostic? = some line ∧ OneLine line := by
  have failed := ended accepted_plain malformed_plain
  have nonzero : (run env ["S"] tree).1.exitCode ≠ 0 := by
    rw [failed]
    decide
  obtain ⟨_, begun, e, _, same, lines⟩ := (diagnostic_line_iff accepted_plain tree).2 nonzero
  obtain ⟨told, own⟩ := (run env ["S"] tree).1.diagnostic_with_own
  obtain ⟨shape, one⟩ := lines told
  rw [failed] at same
  obtain ⟨first, second⟩ := Ending.failed.inj same
  have plain : OneLine "S" := by decide
  refine ⟨accepted_plain, nonzero, _, own.symm.trans shape, one.mpr ⟨?_, ?_⟩⟩
  · rw [← first]
    simpa using plain
  · rw [← second]
    simp [Error.shown]

open LineSample in
/-- A reference with a line break is shown as it was given. -/
theorem diagnostic_of_broken_reference :
    request env ["a\nb"] = .ok (.generate "a\nb" settings 0) ∧ (run env ["a\nb"] tree).1.exitCode = 1
      ∧ (run env ["a\nb"] tree).1.diagnostic? = some
          ("Error: generating accessors for a\nb: expected qualified type as \"crate::path.MyType\", got \"a\nb\": "
            ++ "missing `.` before the type name")
      ∧ ¬ OneLine ("Error: generating accessors for a\nb: expected qualified type as \"crate::path.MyType\", got \"a\nb\": "
            ++ "missing `.` before the type name") := by
  rw [ended accepted_broken malformed_broken]
  exact ⟨accepted_broken, rfl, by decide +kernel, by decide +kernel⟩

end CommandLine

end Accessors
