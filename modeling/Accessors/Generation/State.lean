/-!
How far a run has come.
-/

namespace Accessors

inductive RunState where
  | idle
  | referenceParsed
  | moduleLoaded
  | typeResolved
  | fieldsEnumerated
  /-- The accessors of the field at this position are rendered. -/
  | emitting (index : Nat)
  | done
  | failed (reason : String)
  deriving DecidableEq, Repr, Inhabited

namespace RunState

def isTerminal : RunState → Bool
  | done | failed _ => true
  | _ => false

def text : RunState → String
  | idle => "idle"
  | referenceParsed => "reference parsed"
  | moduleLoaded => "module loaded"
  | typeResolved => "type resolved"
  | fieldsEnumerated => "fields enumerated"
  | emitting index => "emitting field " ++ toString index
  | done => "done"
  | failed reason => "failed: " ++ reason

end RunState

end Accessors
