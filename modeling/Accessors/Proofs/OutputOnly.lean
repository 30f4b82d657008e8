import Accessors.Proofs.OutputEffect
import Accessors.Proofs.RunStages

/-!
A run touches only its output. Whatever it comes to, no file changes but the one that is planned for the type
that the reference names, and nothing else is new but directories. A run that does not find all that it needs
changes nothing. A run that succeeds reports the planned path, and the file is there.
-/

namespace Accessors

/-- The outcome of a run whose emission has a fault, or none. -/
def outcomeOf (report : Report) : Option Error → Except Error Report
  | some e => .error e
  | none => .ok report

theorem Run.put_out_eq (r : Run) (s : ResolvedStruct) (t : File.Tree) :
    r.putOut s t
      = (outcomeOf ⟨plannedOutput r.config r.invocation s.name, s.name, s.describeFields.length⟩
          ((r.request s).emitInto r.registry (plannedOutput r.config r.invocation s.name) t).2,
        ((r.request s).emitInto r.registry (plannedOutput r.config r.invocation s.name) t).1) := by
  unfold putOut
  simp only
  rw [← EmitRequest.emit_file_eq]
  cases (r.request s).emitFile r.registry (plannedOutput r.config r.invocation s.name) t with
  | mk u rest =>
      obtain ⟨seen, fault⟩ := rest
      cases fault <;> rfl

/-- What a run emits that has found a struct. -/
def emission (config : Config) (invocation : Invocation) (registry : Registry) (s : ResolvedStruct) (t : File.Tree) :
    File.Tree × Option Error :=
  ((⟨config, invocation, registry⟩ : Run).request s).emitInto registry (plannedOutput config invocation s.name) t

theorem generate_of_missing {config : Config} {reference : String} {t : File.Tree} {e : Error}
    (missing : prepare t config reference = .error e) (invocation : Invocation) :
    generate config invocation reference t = (.error e, t) := by
  rw [generate_eq, missing]

theorem generate_of_found {config : Config} {reference : String} {t : File.Tree} {registry : Registry}
    {s : ResolvedStruct} (found : prepare t config reference = .ok (registry, s)) (invocation : Invocation) :
    generate config invocation reference t
      = (outcomeOf ⟨plannedOutput config invocation s.name, s.name, s.describeFields.length⟩
          (emission config invocation registry s t).2,
        (emission config invocation registry s t).1) := by
  rw [generate_eq, found]
  exact Run.put_out_eq _ s t

theorem name_of_found {config : Config} {reference : String} {t : File.Tree} {registry : Registry}
    {s : ResolvedStruct} (found : prepare t config reference = .ok (registry, s)) :
    ∃ parsed, TypeReference.parse reference = .ok parsed ∧ s.name = parsed.typeName := by
  obtain ⟨_, resolved⟩ := prepare_ok.mp found
  obtain ⟨parsed, _, _, parsing, _, _, resolving⟩ := struct_of_ok.mp resolved
  exact ⟨parsed, parsing, resolved_name resolving⟩

theorem outcome_of_ok {report given : Report} {fault : Option Error} (ok : outcomeOf given fault = .ok report) :
    fault = none ∧ given = report := by
  cases fault with
  | some e => exact nomatch ok
  | none => exact ⟨rfl, Except.ok.inj ok⟩

/-- All that a run changes, whatever it comes to, is directories that are new and the file at the path that is
planned for the type of its reference. If anything is not found that it needs, it changes nothing. If it succeeds,
it reports the planned path, and a file is there. -/
theorem output_only {config : Config} {invocation : Invocation} {reference : String} {t u : File.Tree}
    {outcome : Except Error Report} (ran : generate config invocation reference t = (outcome, u)) :
    u.cwd = t.cwd
      ∧ (∀ place, u.node? place ≠ t.node? place →
          t.node? place = none ∧ u.node? place = some .directory
            ∨ ∃ parsed text, TypeReference.parse reference = .ok parsed
                ∧ u.locate (plannedOutput config invocation parsed.typeName) = .ok place
                ∧ u.node? place = some (.file (.text text)))
      ∧ ((¬ ∃ registry parsed layout m s, Registry.load t config.templateSource = .ok registry
            ∧ TypeReference.parse reference = .ok parsed
            ∧ CrateLayout.discover t config.crateRoot = .ok layout
            ∧ Module.load t layout parsed.modulePath = .ok m
            ∧ resolveStruct t layout m parsed.typeName = .ok s) →
          (∃ e, outcome = .error e) ∧ u = t)
      ∧ ∀ report, outcome = .ok report → ∃ parsed, TypeReference.parse reference = .ok parsed
          ∧ report.outputPath = plannedOutput config invocation parsed.typeName
          ∧ u.isFile report.outputPath = true := by
  cases found : prepare t config reference with
  | error e =>
      rw [generate_of_missing found] at ran
      obtain ⟨rfl, rfl⟩ := Prod.mk.inj ran
      refine ⟨rfl, fun place changed => absurd rfl changed, fun _ => ⟨⟨e, rfl⟩, rfl⟩, ?_⟩
      intro report succeeded
      exact absurd succeeded (by simp)
  | ok both =>
      obtain ⟨registry, s⟩ := both
      obtain ⟨parsed, parsing, named⟩ := name_of_found found
      rw [generate_of_found found, emission] at ran
      obtain ⟨outcomes, trees⟩ := Prod.mk.inj ran
      have written := EmitRequest.written_of_emit ((⟨config, invocation, registry⟩ : Run).request s) registry
        (plannedOutput config invocation s.name) t
      rw [← trees]
      refine ⟨written.keeps.cwd, ?_, ?_, ?_⟩
      · intro place changed
        rcases EmitRequest.change_of_emit changed with ⟨⟨text, here⟩, located⟩ | ⟨made, same⟩
        · refine Or.inr ⟨parsed, text, parsing, ?_, here⟩
          rw [← named]
          exact located
        · rcases (File.Tree.grown_of_make_above t (plannedOutput config invocation s.name)).nodes place
            with kept | ⟨free, directory⟩
          · exact absurd kept made
          · exact Or.inl ⟨free, same.trans directory⟩
      · intro missing
        obtain ⟨loading, resolved⟩ := prepare_ok.mp found
        obtain ⟨reached, layout, m, stages⟩ := struct_of_ok.mp resolved
        exact absurd ⟨registry, reached, layout, m, s, loading, stages⟩ missing
      · intro report succeeded
        rw [succeeded] at outcomes
        obtain ⟨well, shape⟩ := outcome_of_ok outcomes
        rw [← shape]
        exact ⟨parsed, parsing, by rw [← named], EmitRequest.is_file_of_done well⟩

theorem output_only_of_sample :
    ∃ report u, generate GenerationSample.config GenerationSample.invocation "crate.S" GenerationSample.tree
        = (.ok report, u)
      ∧ report.outputPath = plannedOutput GenerationSample.config GenerationSample.invocation "S"
      ∧ u.isFile report.outputPath = true := by
  obtain ⟨u, ran⟩ := GenerationSample.generates
  obtain ⟨_, _, _, reported⟩ := output_only ran
  obtain ⟨parsed, parsing, planned, filed⟩ := reported GenerationSample.report rfl
  rw [GenerationSample.parses] at parsing
  rw [← Except.ok.inj parsing] at planned
  exact ⟨GenerationSample.report, u, ran, planned, filed⟩

end Accessors
