import Accessors.Template.Render
import Accessors.Proofs.Outcome

/-!
Templates that hold nothing but text and plain variables. Trimming leaves such a template as it is, and rendering
writes its pieces one after the other, with each variable replaced by the text it is bound to, character for
character.
-/

namespace Accessors.Template

/-- A piece of a plain template. -/
inductive Piece where
  | written (text : String)
  | place (name : String)
  deriving DecidableEq, Repr

namespace Piece

def node : Piece → Node
  | .written text => .text text
  | .place name => .output ⟨false, false⟩ (.plain (.lookup (.name name)))

/-- The piece a node is, if it is one. -/
def ofNode? : Node → Option Piece
  | .text text => some (.written text)
  | .output ⟨false, false⟩ (.mk (.lookup (.name name)) false []) => some (.place name)
  | _ => none

/-- The piece with its variable replaced. -/
def filled (fill : String → String) : Piece → String
  | .written text => text
  | .place name => fill name

theorem node_of_node {node : Node} {piece : Piece} (found : ofNode? node = some piece) : node = piece.node := by
  unfold ofNode? at found
  split at found
  · rw [← Option.some.inj found]
    rfl
  · rw [← Option.some.inj found]
    rfl
  · exact absurd found (by simp)

end Piece

/-- The pieces of some nodes, if they are all pieces. -/
def pieces? (nodes : List Node) : Option (List Piece) := nodes.mapM Piece.ofNode?

theorem nodes_of_pieces {nodes : List Node} {pieces : List Piece} (found : pieces? nodes = some pieces) :
    nodes = pieces.map Piece.node := by
  induction nodes generalizing pieces with
  | nil =>
      rw [pieces?, List.mapM_nil] at found
      rw [← Option.some.inj found]
      rfl
  | cons node rest ih =>
      rw [pieces?, List.mapM_cons] at found
      obtain ⟨piece, first, found⟩ := Option.bind_eq_some_iff.mp found
      obtain ⟨more, others, whole⟩ := Option.bind_eq_some_iff.mp found
      rw [← Option.some.inj whole, List.map_cons, Piece.node_of_node first, ih others]

/-- No piece asks for anything around it to be trimmed. -/
theorem trim_nodes_pieces (pieces : List Piece) (done : List Node) :
    trimNodes false done (pieces.map Piece.node) = (pieces.map Piece.node).reverse ++ done := by
  induction pieces generalizing done with
  | nil => simp [trimNodes]
  | cons piece rest ih =>
      cases piece with
      | written text => simp [Piece.node, trimNodes, addText, ih]
      | place name =>
          simp [Piece.node, trimNodes, Node.trimsAfter, Node.trimsBefore, Node.trimInside, trimLastIf, ih]

theorem trim_template_pieces (pieces : List Piece) :
    trimTemplate (pieces.map Piece.node) = pieces.map Piece.node := by
  simp [trimTemplate, trim_nodes_pieces]

section

variable {env : Env} {others : OtherTrees} {scope : Scope} {fill : String → String}

/-- Every variable of the pieces stands for a text. -/
def Fills (env : Env) (scope : Scope) (fill : String → String) (pieces : List Piece) : Prop :=
  ∀ name, Piece.place name ∈ pieces → scope.find? env name [] = some (.string (fill name))

theorem render_place {name : String} (bound : scope.find? env name [] = some (.string (fill name))) :
    renderNode env others (Piece.place name).node scope = .ok ((fill name, .onward), scope) := by
  have value : scope.value? env (.name name) = some (.string (fill name)) := by
    simp [Scope.value?, Scope.keys?, bound]
  have current : currentValue? env (.name name) scope = .ok (some (.string (fill name)), scope) := by
    rw [← value]
    rfl
  have found : lookupOperand env false false (.name name) scope = .ok (some (.string (fill name)), scope) := by
    unfold lookupOperand
    simp only [bind, StateT.bind, Except.bind, current]
    rfl
  have evaluated : evaluate env (callMacro env others) (.plain (.lookup (.name name))) scope
      = .ok (.string (fill name), scope) := by
    simp only [Expr.plain, evaluate, evaluateOperand, hasDefault, bind, StateT.bind, Except.bind, found]
    rfl
  simp only [Piece.node, renderNode, bind, StateT.bind, Except.bind, evaluated]
  rw [Value.text_string]
  rfl

/-- The pieces are written in order, and what is in scope stays. -/
theorem render_pieces (pieces : List Piece) (fills : Fills env scope fill pieces) :
    renderNodes env others (pieces.map Piece.node) scope
      = .ok ((String.join (pieces.map (Piece.filled fill)), .onward), scope) := by
  induction pieces with
  | nil => rfl
  | cons piece rest ih =>
      have later := ih fun name member => fills name (List.mem_cons_of_mem piece member)
      have first : renderNode env others piece.node scope = .ok ((piece.filled fill, .onward), scope) := by
        cases piece with
        | written text => rfl
        | place name => exact render_place (fills name (by simp))
      simp only [List.map_cons, renderNodes, bind, StateT.bind, Except.bind, first, later]
      rw [String.join_cons]
      rfl

end

/-- A plain template is rendered as its pieces, filled from the context. -/
theorem render_plain_template {set : TemplateSet} {name : String} {t : Loaded} {pieces : List Piece}
    {entries : List (String × Value)} {fill : String → String} (found : set.find? name = some t)
    (plain : t.nodes = pieces.map Piece.node) (orphan : t.parent = none)
    (bound : ∀ name, Piece.place name ∈ pieces → entries.lookup name = some (.string (fill name))) :
    set.render name (.object entries) = .ok (String.join (pieces.map (Piece.filled fill))) := by
  have alone : set.ancestors? t = some [] := by
    unfold TemplateSet.ancestors? TemplateSet.ancestorRounds
    rw [orphan]
  let env : Env := ⟨set, entries, t, []⟩
  let scope : Scope := ⟨[⟨t, true, none, []⟩], []⟩
  have fills : Fills env scope fill pieces := by
    intro place member
    have given := bound place member
    simp [Scope.find?, findInFrames, Frame.find?, scope, env, given, Value.follow?]
  have nested : renderNested env nestingLimit env.root.nodes scope
      = .ok ((String.join (pieces.map (Piece.filled fill)), .onward), scope) := by
    have nodes : env.root.nodes = pieces.map Piece.node := plain
    rw [nodes]
    exact render_pieces pieces fills
  unfold TemplateSet.render
  rw [found]
  simp only [alone, Option.getD_some, StateT.run]
  rw [nested]
  rfl

end Accessors.Template
