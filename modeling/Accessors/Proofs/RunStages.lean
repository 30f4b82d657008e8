import Accessors.Proofs.GeneratedFile

/-!
A run reads first and writes last. What it finds depends on the files alone, and only when all of it is found
does the run write, and then it writes the one file that is planned for the struct. So a run as a whole is
finding a struct and then putting out its accessors.
-/

namespace Accessors

namespace Stage

variable {α ε : Type} {p : Progress}

theorem run_of_except (wrap : ε → Error) (x : Except ε α) (p : Progress) :
    (ofExcept wrap x).run.run p = (x.mapError wrap, p) := by
  cases x <;> rfl

theorem run_enter (state : RunState) (p : Progress) : (enter state).run.run p = (.ok (), { p with state }) := rfl

theorem run_tree (p : Progress) : tree.run.run p = (.ok p.tree, p) := rfl

end Stage

/-- The struct that a reference means. -/
def structOf (t : File.Tree) (config : Config) (reference : String) : Except Error ResolvedStruct := do
  let reference ← (TypeReference.parse reference).mapError .usage
  let layout ← (CrateLayout.discover t config.crateRoot).mapError fun fault =>
    .resolution (.moduleLoad "crate" fault)
  let m ← (Module.load t layout reference.modulePath).mapError .resolution
  (resolveStruct t layout m reference.typeName).mapError .resolution

/-- What a run finds before it writes: the templates and the struct. -/
def prepare (t : File.Tree) (config : Config) (reference : String) : Except Error (Registry × ResolvedStruct) := do
  let registry ← (Registry.load t config.templateSource).mapError .template
  return (registry, ← structOf t config reference)

theorem struct_of_ok {t : File.Tree} {config : Config} {reference : String} {s : ResolvedStruct} :
    structOf t config reference = .ok s
      ↔ ∃ parsed layout m, TypeReference.parse reference = .ok parsed
          ∧ CrateLayout.discover t config.crateRoot = .ok layout
          ∧ Module.load t layout parsed.modulePath = .ok m ∧ resolveStruct t layout m parsed.typeName = .ok s := by
  simp only [structOf, Outcome.bind_ok, Outcome.map_error_ok]
  constructor
  · rintro ⟨parsed, parsing, layout, discovering, m, loading, resolving⟩
    exact ⟨parsed, layout, m, parsing, discovering, loading, resolving⟩
  · rintro ⟨parsed, layout, m, parsing, discovering, loading, resolving⟩
    exact ⟨parsed, parsing, layout, discovering, m, loading, resolving⟩

theorem prepare_ok {t : File.Tree} {config : Config} {reference : String} {registry : Registry}
    {s : ResolvedStruct} :
    prepare t config reference = .ok (registry, s)
      ↔ Registry.load t config.templateSource = .ok registry ∧ structOf t config reference = .ok s := by
  simp only [prepare, Outcome.bind_ok, Outcome.map_error_ok, Outcome.pure_ok, Prod.mk.injEq]
  constructor
  · rintro ⟨_, loading, _, found, rfl, rfl⟩
    exact ⟨loading, found⟩
  · rintro ⟨loading, found⟩
    exact ⟨registry, loading, s, found, rfl, rfl⟩

namespace Run

/-- Writes the accessors of a struct. Answers the outcome and the files after it. -/
def putOut (r : Run) (s : ResolvedStruct) (t : File.Tree) : Except Error Report × File.Tree :=
  let output := plannedOutput r.config r.invocation s.name
  let (u, _, fault) := (r.request s).emitFile r.registry output t
  match fault with
  | some e => (.error e, u)
  | none => (.ok ⟨output, s.name, s.describeFields.length⟩, u)

/-- The states that are entered on the way do not touch the files. -/
theorem run_emit (r : Run) (s : ResolvedStruct) (p : Progress) :
    Prod.map id Progress.tree ((r.emit s).run.run p) = r.putOut s p.tree := by
  unfold emit putOut request
  simp only [Stage.run_bind, Stage.run_enter, Stage.run_tree]
  cases emitted : EmitRequest.emitFile
      ⟨s.name, s.generics, s.describeFields, r.invocation.packageName, r.invocation.sourceFile⟩ r.registry
      (plannedOutput r.config r.invocation s.name) p.tree with
  | mk u rest =>
      obtain ⟨seen, fault⟩ := rest
      cases last : seen.getLast? with
      | none =>
          simp only
          cases fault <;> rfl
      | some field =>
          simp only
          cases fault <;> rfl

theorem run_stages (r : Run) (reference : String) (p : Progress) :
    Prod.map id Progress.tree ((r.stages reference).run.run p)
      = match structOf p.tree r.config reference with
        | .error e => (.error e, p.tree)
        | .ok s => r.putOut s p.tree := by
  unfold stages structOf
  simp only [Stage.run_bind, Stage.run_enter, Stage.run_tree, Stage.run_of_except]
  cases TypeReference.parse reference with
  | error malformed => rfl
  | ok parsed =>
      simp only [Outcome.map_error_of_ok, bind, Except.bind]
      cases CrateLayout.discover p.tree r.config.crateRoot with
      | error fault => rfl
      | ok layout =>
          simp only [Outcome.map_error_of_ok]
          cases Module.load p.tree layout parsed.modulePath with
          | error fault => rfl
          | ok m =>
              simp only [Outcome.map_error_of_ok]
              cases resolveStruct p.tree layout m parsed.typeName with
              | error fault => rfl
              | ok s => exact r.run_emit s _

theorem execute_idle (r : Run) (reference : String) (t : File.Tree) :
    Prod.map id Progress.tree (r.execute reference ⟨.idle, t⟩)
      = match structOf t r.config reference with
        | .error e => (.error e, t)
        | .ok s => r.putOut s t := by
  have stages := r.run_stages reference ⟨.idle, t⟩
  have idle : ¬ (RunState.idle ≠ RunState.idle) := fun differs => differs rfl
  rw [← stages]
  unfold execute
  rw [if_neg idle]
  cases (r.stages reference).run.run ⟨.idle, t⟩ with
  | mk outcome q => cases outcome <;> rfl

end Run

/-- Generating is finding the templates and the struct and putting out the accessors. -/
theorem generate_eq (config : Config) (invocation : Invocation) (reference : String) (t : File.Tree) :
    generate config invocation reference t
      = match prepare t config reference with
        | .error e => (.error e, t)
        | .ok (registry, s) => (⟨config, invocation, registry⟩ : Run).putOut s t := by
  unfold generate prepare
  cases Registry.load t config.templateSource with
  | error cause => rfl
  | ok registry =>
      have executed := (⟨config, invocation, registry⟩ : Run).execute_idle reference t
      simp only [Outcome.map_error_of_ok, bind, Except.bind]
      cases ran : (⟨config, invocation, registry⟩ : Run).execute reference ⟨.idle, t⟩ with
      | mk outcome q =>
          rw [ran] at executed
          simp only [Prod.map, id] at executed
          rw [executed]
          cases structOf t config reference <;> rfl

end Accessors
