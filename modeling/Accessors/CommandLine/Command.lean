import Accessors.CommandLine.Arguments
import Accessors.Generation.Run

/-!
The command: it generates the accessors of one type. A command that fails says why on one diagnostic and exits
with 1.
-/

namespace Accessors.CommandLine

inductive Ending where
  | help
  | version
  | refused (refusal : Refusal)
  | generated (report : Report)
  /-- The reference is named when generation itself failed. -/
  | failed (reference : Option String) (e : Error)
  deriving Inhabited

namespace Ending

def exitCode : Ending → Nat
  | help | version | generated _ => 0
  | refused _ | failed _ _ => 1

/-- The text that a failed command leaves. -/
def diagnostic? : Ending → Option String
  | failed none e => some ("Error: " ++ e.chain)
  | failed (some reference) e => some ("Error: generating accessors for " ++ reference ++ ": " ++ e.chain)
  | _ => none

end Ending

def overridesOf (settings : List (Setting × String)) : Overrides :=
  let path (s : Setting) : Option File.Path := (settings.lookup s).map File.Path.mk
  ⟨path .config, path .crateRoot, path .outputDir, path .templateDir⟩

/-- What generation needs: the build step is looked at first, and then the settings. -/
def prepare (t : File.Tree) (settings : List (Setting × String)) (cwd : File.Path) :
    Except Error (Invocation × Config) := do
  let invocation ← (Invocation.ofValues (settings.lookup .file) (settings.lookup .package)).mapError
    Error.missingContext
  let config ← (Config.resolve t (overridesOf settings) cwd).mapError Error.config
  return (invocation, config)

/-- Runs the command in the working directory of a tree. Answers how it ends and the files after it. -/
def run (env : String → Option String) (args : List String) (t : File.Tree) : Ending × File.Tree :=
  match request env args with
  | .error refusal => (.refused refusal, t)
  | .ok .help => (.help, t)
  | .ok .version => (.version, t)
  | .ok (.generate reference settings _) =>
      match prepare t settings t.cwdPath with
      | .error e => (.failed none e, t)
      | .ok (invocation, config) =>
          match generate config invocation reference t with
          | (.ok report, t) => (.generated report, t)
          | (.error e, t) => (.failed (some reference) e, t)

end Accessors.CommandLine
