import Accessors.Config
import Accessors.Crate.Fault
import Accessors.Generation.Invocation
import Accessors.Generation.State
import Accessors.Reference
import Accessors.Template.Registry

/-!
Why a run fails. An error is the cause that a stage of the run gives, and its message is that cause's own.
-/

namespace Accessors

open File (Fault)

inductive Error where
  | usage (cause : MalformedReference)
  | resolution (cause : ResolutionError)
  | template (cause : TemplateError)
  | missingContext (cause : MissingContext)
  | io (path : File.Path) (fault : Fault)
  | config (cause : ConfigFault)
  /-- A run is started again that is not idle, which counts as an error of configuration. -/
  | startedTwice (state : RunState)
  deriving DecidableEq, Repr, Inhabited

namespace Error

def message : Error → String
  | usage cause => cause.message
  | resolution cause => cause.message
  | template cause => cause.message
  | missingContext cause => cause.message
  | io path _ => "failed to write " ++ path.text
  | config cause => "configuration error: " ++ cause.message
  | startedTwice state => "configuration error: generation run already " ++ state.text

/-- What lies behind an error, in words. -/
def cause? : Error → Option String
  | template cause => cause.cause?
  | io _ fault => some fault.message
  | _ => none

/-- The message with what lies behind it. -/
def chain (e : Error) : String :=
  match e.cause? with
  | some cause => e.message ++ ": " ++ cause
  | none => e.message

end Error

end Accessors
