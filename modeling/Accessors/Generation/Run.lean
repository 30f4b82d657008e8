import Accessors.Generation.Emission
import Accessors.Generation.Output

/-!
Runs. A run parses a reference, loads the module it names, resolves the struct, enumerates its fields and emits
their accessors. It is executed once: after that it is done or has failed, and refuses to start again.
-/

namespace Accessors

/-- What a run that succeeded has done. -/
structure Report where
  outputPath : File.Path
  structName : String
  fieldCount : Nat
  deriving DecidableEq, Repr, Inhabited

/-- What the stages of a run work on: how far it is, and the files. -/
structure Progress where
  state : RunState
  tree : File.Tree
  deriving Inhabited

/-- A stage of a run. What it did before an error stays done. -/
abbrev Stage := ExceptT Error (StateM Progress)

namespace Stage

/-- The outcome of something that only reads. -/
def ofExcept {α ε : Type} (wrap : ε → Error) : Except ε α → Stage α
  | .ok a => pure a
  | .error e => throw (wrap e)

def enter (state : RunState) : Stage Unit :=
  modify fun p => { p with state }

def tree : Stage File.Tree := return (← get).tree

end Stage

/-- What a run is executed with. -/
structure Run where
  config : Config
  invocation : Invocation
  registry : Registry

namespace Run

def emit (r : Run) (resolved : ResolvedStruct) : Stage Report := do
  let fields := resolved.describeFields
  Stage.enter .fieldsEnumerated
  let output := plannedOutput r.config r.invocation resolved.name
  let request : EmitRequest :=
    ⟨resolved.name, resolved.generics, fields, r.invocation.packageName, r.invocation.sourceFile⟩
  let (tree, seen, fault) := request.emitFile r.registry output (← Stage.tree)
  modify fun p => { p with tree }
  match seen.getLast? with
  | some (index, _) => Stage.enter (.emitting index)
  | none => pure ()
  match fault with
  | some e => throw e
  | none => return ⟨output, resolved.name, fields.length⟩

def stages (r : Run) (reference : String) : Stage Report := do
  let reference ← Stage.ofExcept .usage (TypeReference.parse reference)
  Stage.enter .referenceParsed
  let tree ← Stage.tree
  let layout ← Stage.ofExcept (fun fault => .resolution (.moduleLoad "crate" fault))
    (CrateLayout.discover tree r.config.crateRoot)
  let m ← Stage.ofExcept .resolution (Module.load tree layout reference.modulePath)
  Stage.enter .moduleLoaded
  let resolved ← Stage.ofExcept .resolution (resolveStruct tree layout m reference.typeName)
  Stage.enter .typeResolved
  r.emit resolved

/-- Executes a run that is idle, and refuses any other. -/
def execute (r : Run) (reference : String) (p : Progress) : Except Error Report × Progress :=
  if p.state ≠ .idle then (.error (.startedTwice p.state), p)
  else
    match (r.stages reference).run.run p with
    | (.ok report, p) => (.ok report, { p with state := .done })
    | (.error e, p) => (.error e, { p with state := .failed e.message })

end Run

namespace Config

/-- Where the templates of a run come from. -/
def templateSource (c : Config) : TemplateSource :=
  match c.templateDir with
  | some dir => .directory dir
  | none => .builtIn

end Config

/-- Loads the templates and executes one run. Answers its outcome and the files after it. -/
def generate (config : Config) (invocation : Invocation) (reference : String) (t : File.Tree) :
    Except Error Report × File.Tree :=
  match Registry.load t config.templateSource with
  | .error cause => (.error (.template cause), t)
  | .ok registry =>
      let (outcome, p) := Run.execute ⟨config, invocation, registry⟩ reference ⟨.idle, t⟩
      (outcome, p.tree)

end Accessors
