import Accessors.Template.Filter
import Accessors.Template.Loaded

/-!
What is in scope while a template is rendered. Variables are looked for in the frames of the loops, inserted
templates and macros one is in, innermost first, and then in the context; a macro does not see the frames around
its call.
-/

namespace Accessors.Template

/-- The round a loop is in. -/
structure Round where
  key : Option (String × String)
  name : String
  value : Value
  index : Nat
  size : Nat
  deriving Inhabited

/-- Variables that came together into scope. -/
structure Frame where
  /-- The template whose nodes are rendered. -/
  template : Loaded
  /-- Whether nothing but the context is seen around the frame. -/
  isClosed : Bool
  round : Option Round
  /-- The variables that were set, latest first. -/
  bindings : List (String × Value)
  deriving Inhabited

/-- A block that is rendered, with the template it is taken from and how far up that is. -/
structure OpenBlock where
  name : String
  template : Loaded
  level : Nat
  deriving Inhabited

structure Scope where
  /-- The frames, innermost first. -/
  frames : List Frame
  /-- The blocks, innermost first. -/
  blocks : List OpenBlock
  deriving Inhabited

/-- What a rendering does not change. -/
structure Env where
  set : TemplateSet
  context : List (String × Value)
  /-- The template asked for, and its ancestors from its parent on. -/
  template : Loaded
  ancestors : List Loaded
  deriving Inhabited

/-- The template whose nodes are rendered first. -/
def Env.root (env : Env) : Loaded := env.ancestors.getLast?.getD env.template

abbrev RenderM := StateT Scope (Except RenderFault)

/-- What the loop's own variables are in a round. -/
def Round.find? (r : Round) (name : String) (keys : List String) : Option Value :=
  match name, keys with
  | "loop", ["index"] => some (.ofNat (r.index + 1))
  | "loop", ["index0"] => some (.ofNat r.index)
  | "loop", ["first"] => some (.boolean (r.index == 0))
  | "loop", ["last"] => some (.boolean (r.index + 1 == r.size))
  | _, _ =>
      if name = r.name then r.value.follow? keys
      else
        match r.key with
        | some (keyName, key) => if name = keyName then some (.string key) else none
        | none => none

def Frame.find? (f : Frame) (name : String) (keys : List String) : Option Value :=
  ((f.bindings.lookup name).bind (·.follow? keys)).or (f.round.bind (·.find? name keys))

/-- Looks through frames, innermost first, up to a closed one. -/
def findInFrames (name : String) (keys : List String) : List Frame → Option Value
  | [] => none
  | frame :: rest =>
      match frame.find? name keys with
      | some value => some value
      | none => if frame.isClosed then none else findInFrames name keys rest

/-- The value at the end of a path of keys. -/
def Scope.find? (env : Env) (s : Scope) (name : String) (keys : List String) : Option Value :=
  (findInFrames name keys s.frames).or ((env.context.lookup name).bind (·.follow? keys))

/-- The text of a key that a variable stands for. -/
def keyText? : Value → Option String
  | .string text => some text
  | .number n => some n.joinedText
  | _ => none

/-- The name and the keys of a variable. -/
def Scope.keys? (env : Env) (s : Scope) : Variable → Option (String × List String)
  | .name base => some (base, [])
  | .key owner key => (s.keys? env owner).map fun (name, keys) => (name, keys ++ [key])
  | .computed owner inner => do
      let (name, keys) ← s.keys? env owner
      let (innerName, innerKeys) ← s.keys? env inner
      let key ← (s.find? env innerName innerKeys).bind keyText?
      return (name, keys ++ [key])

def Scope.value? (env : Env) (s : Scope) (path : Variable) : Option Value :=
  (s.keys? env path).bind fun (name, keys) => s.find? env name keys

/-- The name a variable begins with. -/
def Variable.base : Variable → String
  | .name base => base
  | .key owner _ => owner.base
  | .computed owner _ => owner.base

/-- The value of a variable. -/
def currentValue? (env : Env) (path : Variable) : RenderM (Option Value) := do
  return (← get).value? env path

def fromExcept {α : Type} : Except RenderFault α → RenderM α
  | .ok a => pure a
  | .error fault => throw fault

end Accessors.Template
