import Accessors.Template.Evaluate

/-!
Rendering templates. Nodes are rendered by recursion on the tree. What leads to another tree (a macro, an
inserted template, a block of another template) is rendered by a function that is handed in and counts how deep
the trees are nested.
-/

namespace Accessors.Template

/-- Whether rendering goes on after a node, or the innermost loop goes on or ends. -/
inductive Flow where
  | onward
  | nextRound
  | leaveLoop
  deriving DecidableEq, Repr, Inhabited

/-- The text of some nodes and how to go on after them. -/
abbrev Rendered := String × Flow

/-- Renders the nodes of another tree. -/
abbrev OtherTrees := List Node → RenderM Rendered

/-! Frames and blocks. -/

def pushFrame (frame : Frame) : RenderM Unit :=
  modify fun s => { s with frames := frame :: s.frames }

def popFrame : RenderM Unit :=
  modify fun s => { s with frames := s.frames.tail }

/-- What an action answers inside a frame. -/
def inFrame {α : Type} (frame : Frame) (action : RenderM α) : RenderM α := do
  pushFrame frame
  let a ← action
  popFrame
  return a

/-- The template whose nodes are rendered at present. -/
def activeTemplate (env : Env) : RenderM Loaded := do
  return ((← get).frames.head?.map (·.template)).getD env.template

/-- Sets a variable in the first frame that fits. -/
def setVariable (fits : Frame → Bool) (name : String) (value : Value) : List Frame → List Frame
  | [] => []
  | frame :: rest =>
      if fits frame then { frame with bindings := (name, value) :: frame.bindings } :: rest
      else frame :: setVariable fits name value rest

/-- Where a block is first defined, from a template on upwards; its level counts the steps up. -/
def findBlock? (name : String) (level : Nat) : List Loaded → Option (OpenBlock × List Node)
  | [] => none
  | t :: rest =>
      match t.blocks.lookup name with
      | some body => some (⟨name, t, level⟩, body)
      | none => findBlock? name (level + 1) rest

def openBlock (block : OpenBlock) : RenderM Unit :=
  modify fun s => { s with blocks := block :: s.blocks }

def closeBlock : RenderM Unit :=
  modify fun s => { s with blocks := s.blocks.tail }

/-! What leads to other trees. -/

/-- The template in whose name macros are called. -/
def callingTemplate (env : Env) : RenderM Loaded := do
  match (← get).blocks with
  | block :: _ => return block.template
  | [] => if env.template.name ≠ env.root.name then return env.root else activeTemplate env

/-- The literals that may be defaults. -/
def literalValue : Operand → Value
  | .string text => .string text
  | .integer value => .ofInt value
  | .float value => .number (.float value)
  | .boolean value => .boolean value
  | _ => .null

/-- The variables a macro starts with. -/
def bindParams (callee : String) (args : DelayedArgs) :
    List (String × Option Operand) → RenderM (List (String × Value))
  | [] => return []
  | (param, default) :: rest => do
      let value ←
        match ← namedArg? param args, default with
        | some value, _ => pure value
        | none, some literal => pure (literalValue literal)
        | none, none => throw (.missingArgument callee param)
      return (param, value) :: (← bindParams callee args rest)

def callMacro (env : Env) (others : OtherTrees) : MacroCalls := fun library name args => do
  match env.set.macro? (← callingTemplate env) library name with
  | none => throw (.unknownMacro library name)
  | some (home, found) =>
      let bindings ← bindParams name args found.params
      return (← inFrame ⟨home, true, none, bindings⟩ (others found.body)).1

/-- Renders the first of some templates that there is. -/
def insertTemplate (env : Env) (others : OtherTrees) (files : List String) (ignoreMissing : Bool) :
    RenderM Rendered := do
  match files.findSome? env.set.find? with
  | some t => return ((← inFrame ⟨t, false, none, []⟩ (others t.nodes)).1, .onward)
  | none => if ignoreMissing then return ("", .onward) else throw (.missingTemplate files)

/-- Renders a block as the nearest template defines it. -/
def renderBlock (env : Env) (others : OtherTrees) (name : String) (own : RenderM Rendered) :
    RenderM Rendered := do
  let active ← activeTemplate env
  match findBlock? name 0 (active :: (env.set.ancestors? active).getD []) with
  | some (block, body) =>
      openBlock block
      others body
  | none => own

/-- Renders the innermost block as the templates above define it. -/
def renderSuper (env : Env) (others : OtherTrees) : RenderM Rendered := do
  match (← get).blocks with
  | [] => throw .noParentBlock
  | block :: _ =>
      match findBlock? block.name (block.level + 1) (env.ancestors.drop block.level) with
      | none => throw .noParentBlock
      | some (upper, body) =>
          openBlock upper
          let rendered ← others body
          closeBlock
          if upper.level ≥ env.ancestors.length then closeBlock
          return rendered

/-! Loops. -/

/-- What a loop runs over: each value, with its key in an object. -/
def loopItems (key : Option String) : Value → RenderM (List (Option (String × String) × Value))
  | .array elements => if key.isSome then throw .notIterable else return elements.map fun v => (none, v)
  | .string text =>
      if key.isSome then throw .notIterable
      else return text.toList.map fun c => (none, .string (String.singleton c))
  | .object entries =>
      match key with
      | some key => return entries.map fun (k, v) => (some (key, k), v)
      | none => throw .notIterable
  | _ => throw .notIterable

/-- Only a variable, a list or the result of a function can be run over. -/
def isLoopContainer : Expr → Bool
  | .mk (.lookup _) _ _ => true
  | .mk (.array _) _ _ => true
  | .mk (.call _) _ _ => true
  | _ => false

/-- Renders a body once for each item. What a round sets is gone in the next. -/
def renderRounds (home : Loaded) (name : String) (size : Nat) (body : RenderM Rendered) :
    (index : Nat) → List (Option (String × String) × Value) → RenderM String
  | _, [] => return ""
  | index, (key, value) :: rest => do
      let (text, flow) ← inFrame ⟨home, false, some ⟨key, name, value, index, size⟩, []⟩ body
      if flow = .leaveLoop then return text
      else return text ++ (← renderRounds home name size body (index + 1) rest)

/-! Nodes. -/

mutual

def renderNode (env : Env) (others : OtherTrees) : Node → RenderM Rendered
  | .text text => return (text, .onward)
  | .output _ expr => do return ((← evaluate env (callMacro env others) expr).text, .onward)
  | .comment _ => return ("", .onward)
  | .raw _ text _ => return (text, .onward)
  | .assign _ global name value => do
      let value ← evaluate env (callMacro env others) value
      modify fun s =>
        { s with frames := setVariable (fun frame => !global || frame.round.isNone) name value s.frames }
      return ("", .onward)
  | .insertion _ files ignoreMissing => insertTemplate env others files ignoreMissing
  | .library _ _ _ => return ("", .onward)
  | .parent _ file => throw (.inheritedInsertion file)
  | .branch arms otherwise _ => do
      match ← renderArms env others arms with
      | some rendered => return rendered
      | none => renderOtherwise env others otherwise
  | .loop _ key name container body empty _ => do
      if !isLoopContainer container then throw .notIterable
      let items ← loopItems key (← evaluate env (callMacro env others) container)
      if items.isEmpty then renderEmpty env others empty
      else
        let home ← activeTemplate env
        return (← renderRounds home name items.length (renderNodes env others body) 0 items, .onward)
  | .filtered _ (.mk name args) body _ => do
      let (text, _) ← renderNodes env others body
      let value ← filterValue name (delayArgs env (callMacro env others) args) (.string text)
      return (value.text, .onward)
  | .block _ name body _ => renderBlock env others name (renderNodes env others body)
  | .macroDef _ _ _ _ _ => return ("", .onward)
  | .super => renderSuper env others
  | .leave _ => return ("", .leaveLoop)
  | .next _ => return ("", .nextRound)

/-- Renders the body of the first condition that holds. -/
def renderArms (env : Env) (others : OtherTrees) : List Arm → RenderM (Option Rendered)
  | [] => return none
  | .mk _ condition body :: rest => do
      if ← holds env (callMacro env others) condition then return some (← renderNodes env others body)
      else renderArms env others rest

def renderOtherwise (env : Env) (others : OtherTrees) : Option Otherwise → RenderM Rendered
  | some (.mk _ body) => renderNodes env others body
  | none => return ("", .onward)

def renderEmpty (env : Env) (others : OtherTrees) : Option (List Node) → RenderM Rendered
  | some body => renderNodes env others body
  | none => return ("", .onward)

/-- Renders nodes one after the other, up to one that leaves the round of a loop. -/
def renderNodes (env : Env) (others : OtherTrees) : List Node → RenderM Rendered
  | [] => return ("", .onward)
  | node :: rest => do
      let (text, flow) ← renderNode env others node
      match flow with
      | .onward =>
          let (more, flow) ← renderNodes env others rest
          return (text ++ more, flow)
      | flow => return (text, flow)

end

/-- Renders nodes when trees may be nested up to a depth. -/
def renderNested (env : Env) : (depth : Nat) → OtherTrees
  | 0, _ => throw .tooDeep
  | depth + 1, nodes => renderNodes env (renderNested env depth) nodes

/-- How deep trees may be nested. -/
def nestingLimit : Nat := 1000

/-- The text of a template of a set for a context. -/
def TemplateSet.render (set : TemplateSet) (name : String) (context : Value) : Except RenderFault String := do
  match context, set.find? name with
  | .object entries, some t =>
      let env : Env := ⟨set, entries, t, (set.ancestors? t).getD []⟩
      let scope : Scope := ⟨[⟨t, true, none, []⟩], []⟩
      return (← (renderNested env nestingLimit env.root.nodes).run scope).1.1
  | .object _, none => throw (.missingTemplate [name])
  | _, _ => throw .notAnObject

end Accessors.Template
