import Accessors.Crate.Module
import Accessors.Signature.Generics

/-!
Following an alias. One round looks at the target of the last alias and finds where it leads: to a declaration
of the same module, to one of another module of the crate, or out of the crate. Rounds go on until a struct is
found. Targets with generic arguments are refused, since nothing substitutes them, and so is a declaration that
was visited before.
-/

namespace Accessors

inductive AliasTarget where
  /-- A type of the same module. -/
  | here (name : String)
  /-- A name of a module of the crate. -/
  | inModule (segments : List String) (name : String)
  /-- Nothing in the crate. -/
  | foreign (signature : String)
  deriving DecidableEq, Repr, Inhabited

namespace AliasTarget

/-- The module and the name an absolute path leads to, if it stays in the crate. -/
def ofPath? (path : List String) : Option AliasTarget :=
  match path, path.getLast? with
  | "crate" :: _ :: _, some name => some (.inModule path.dropLast name)
  | _, _ => none

/-- The absolute path that a path of several segments means in a module. -/
def absolutePath (m : Module) (first : String) (rest : List String) : List String :=
  match m.imports.get? first with
  | some imported =>
      if first = "crate" ∨ first = "self" ∨ first = "super" then
        absolutize (first :: rest) m.segments
      else imported ++ rest
  | none => absolutize (first :: rest) m.segments

/-- Where a type points that stands as a target in a module. -/
def classify (m : Module) : Ty → AliasTarget
  | .paren inner => classify m inner
  | .path false segments =>
      let foreign := AliasTarget.foreign (Signature.ty m.imports (.path false segments))
      match segments.map fun s => unraw s.name.text with
      | [] => foreign
      | [name] =>
          if (Symbol.find? m.symbols name).any (·.kind.isType) then .here name
          else ((m.imports.get? name).bind ofPath?).getD foreign
      | first :: rest => (ofPath? (absolutePath m first rest)).getD foreign
  | target => .foreign (Signature.ty m.imports target)

/-- A path that stays in the crate leads to a module whose segments begin with `crate`. -/
theorem of_path_some {path : List String} {target : AliasTarget} (found : ofPath? path = some target) :
    ∃ segments name, target = .inModule ("crate" :: segments) name := by
  unfold ofPath? at found
  split at found
  · next second rest name _ =>
      have same : AliasTarget.inModule ("crate" :: second :: rest).dropLast name = target :=
        Option.some.inj found
      exact ⟨(second :: rest).dropLast, name, same.symm⟩
  · exact absurd found (by simp)

theorem of_path_get_d {path : Option (List String)} {written : String} {segments : List String} {name : String}
    (target : (path.bind ofPath?).getD (.foreign written) = .inModule segments name) :
    ∃ rest, segments = "crate" :: rest := by
  cases found : path.bind ofPath? with
  | none =>
      rw [found] at target
      exact absurd target (by simp)
  | some reached =>
      rw [found] at target
      obtain ⟨whole, known, leads⟩ := Option.bind_eq_some_iff.mp found
      obtain ⟨rest, last, shape⟩ := of_path_some leads
      have same : AliasTarget.inModule ("crate" :: rest) last = .inModule segments name :=
        shape.symm.trans target
      exact ⟨rest, (AliasTarget.inModule.inj same).1.symm⟩

/-- Whatever module a target leads to, its segments begin with `crate`. -/
theorem classify_in_module {m : Module} {target : Ty} {segments : List String} {name : String}
    (leads : classify m target = .inModule segments name) : ∃ rest, segments = "crate" :: rest := by
  fun_induction classify m target with
  | case1 inner ih => exact ih leads
  | case2 | case3 | case6 => exact absurd leads (by simp)
  | case4 path foreign own written absent => exact of_path_get_d leads
  | case5 path foreign first rest written => exact @of_path_get_d (some _) _ _ _ leads

end AliasTarget

/-- Whether a segment of a type's path has arguments. -/
def Ty.hasArgs : Ty → Bool
  | .paren inner => inner.hasArgs
  | .path _ segments => segments.any Segment.hasArgs
  | .projection _ _ traitPath rest => traitPath.any Segment.hasArgs || rest.any Segment.hasArgs
  | _ => false

/-- The longest chain of aliases that is followed. -/
def longestChain : Nat := 16

/-- A declared name as the key of a visited declaration. -/
def visitKey (m : Module) (name : String) : String := m.path ++ "::" ++ name

/-- Lookup finds the item as what the name means in the module. -/
def Module.Finds (m : Module) (name : String) (item : Item) : Prop :=
  ∃ symbol, Symbol.find? m.symbols name = some symbol ∧ symbol.item = item

/-- The target, standing in the module, leads to the name in the module that is reached. -/
def Module.Leads (t : File.Tree) (layout : CrateLayout) (m : Module) (target : Ty) (reached : Module)
    (name : String) : Prop :=
  match AliasTarget.classify m target with
  | .here own => reached = m ∧ name = own
  | .inModule segments own => Module.loadSegments t layout segments = .ok reached ∧ name = own
  | .foreign _ => False

/-- The module and name an alias target leads to. -/
def followTarget (t : File.Tree) (layout : CrateLayout) (requested : String) (m : Module) (target : Ty) :
    Except ResolutionError (Module × String) :=
  match AliasTarget.classify m target with
  | .here name => .ok (m, name)
  | .inModule segments name => do return (← Module.loadSegments t layout segments, name)
  | .foreign signature => .error (.notAStruct requested (.written signature))

theorem follow_target_ok {t : File.Tree} {layout : CrateLayout} {requested : String} {m reached : Module}
    {target : Ty} {name : String} :
    followTarget t layout requested m target = .ok (reached, name) ↔ m.Leads t layout target reached name := by
  unfold followTarget Module.Leads
  cases AliasTarget.classify m target with
  | here own => simp [eq_comm]
  | inModule segments own =>
      cases loaded : Module.loadSegments t layout segments with
      | error fault => simp [loaded, bind, Except.bind]
      | ok found => simp [loaded, bind, Except.bind, pure, Except.pure, eq_comm]
  | foreign written => simp

/-- How far the following of an alias is: the target to be looked at next, the module it stands in, and the
keys of the declarations that were visited. -/
structure AliasWalk where
  module : Module
  target : Ty
  visited : List String
  deriving Inhabited

/-- What one round of following comes to. -/
inductive AliasRound where
  | arrived (module : Module) (decl : StructDecl)
  | onward (next : AliasWalk)

namespace AliasWalk

/-- The walk that begins at an alias of a module. -/
def start (m : Module) (name : String) (target : Ty) : AliasWalk := ⟨m, target, [visitKey m name]⟩

/-- What the declaration of a name makes of a walk whose target leads to it. -/
def meet (requested : String) (w : AliasWalk) (m : Module) (name : String) : Except ResolutionError AliasRound :=
  let written := Signature.ty w.module.imports w.target
  match Symbol.find? m.symbols name with
  | none => .error (.notAStruct requested (.written written))
  | some symbol =>
      match symbol.item with
      | .struct decl =>
          if w.target.hasArgs then .error (.unsupportedAlias requested (.genericTarget written))
          else .ok (.arrived m decl)
      | .typeAlias next =>
          if w.target.hasArgs then .error (.unsupportedAlias requested (.genericTarget written))
          else .ok (.onward ⟨m, next.target, visitKey m name :: w.visited⟩)
      | _ => .error (.notAStruct requested (.declared symbol.kind name))

/-- One round. The checks come in this order: the length of the chain, where the target leads, whether that was
visited, and then what is declared there. -/
def round (t : File.Tree) (layout : CrateLayout) (requested : String) (w : AliasWalk) :
    Except ResolutionError AliasRound :=
  if w.visited.length > longestChain then .error (.aliasCycle requested)
  else
    match followTarget t layout requested w.module w.target with
    | .error fault => .error fault
    | .ok (m, name) =>
        if visitKey m name ∈ w.visited then .error (.aliasCycle requested) else w.meet requested m name

section

variable {t : File.Tree} {layout : CrateLayout} {requested : String} {w : AliasWalk} {m : Module}

theorem meet_arrived {reached : Module} {name : String} {decl : StructDecl} :
    w.meet requested m name = .ok (.arrived reached decl)
      ↔ m.Finds name (.struct decl) ∧ w.target.hasArgs = false ∧ reached = m := by
  unfold meet Module.Finds
  cases Symbol.find? m.symbols name with
  | none => simp
  | some symbol =>
      obtain ⟨spelling, kind, item⟩ := symbol
      cases item <;> cases w.target.hasArgs <;> simp [and_comm, eq_comm]

theorem meet_onward {next : AliasWalk} {name : String} :
    w.meet requested m name = .ok (.onward next)
      ↔ ∃ decl, m.Finds name (.typeAlias decl) ∧ w.target.hasArgs = false
          ∧ next = ⟨m, decl.target, visitKey m name :: w.visited⟩ := by
  unfold meet Module.Finds
  cases Symbol.find? m.symbols name with
  | none => simp
  | some symbol =>
      obtain ⟨spelling, kind, item⟩ := symbol
      cases item <;> cases w.target.hasArgs <;> simp [eq_comm]

/-- A round gives what the declaration gives that its target leads to, if there is room for it and it was not
visited. -/
theorem round_ok {out : AliasRound} :
    w.round t layout requested = .ok out
      ↔ w.visited.length ≤ longestChain ∧ ∃ m name, w.module.Leads t layout w.target m name
          ∧ visitKey m name ∉ w.visited ∧ w.meet requested m name = .ok out := by
  unfold round
  by_cases full : w.visited.length > longestChain
  · have crowded : ¬ w.visited.length ≤ longestChain := by omega
    simp [full, crowded]
  · have room : w.visited.length ≤ longestChain := by omega
    rw [if_neg full]
    cases followed : followTarget t layout requested w.module w.target with
    | error fault =>
        have stuck : ∀ m name, ¬ w.module.Leads t layout w.target m name := by
          intro m name leads
          rw [follow_target_ok.mpr leads] at followed
          exact absurd followed (by simp)
        simp [stuck]
    | ok place =>
        obtain ⟨m, name⟩ := place
        have only : ∀ other called, w.module.Leads t layout w.target other called ↔ other = m ∧ called = name := by
          intro other called
          have answer := @follow_target_ok t layout requested w.module other w.target called
          rw [← answer, followed]
          simp [eq_comm]
        by_cases seen : visitKey m name ∈ w.visited
        · simp [seen, only]
        · simp only [if_neg seen, only, room, true_and]
          constructor
          · intro met
            exact ⟨m, name, ⟨rfl, rfl⟩, seen, met⟩
          · rintro ⟨_, _, ⟨rfl, rfl⟩, _, met⟩
            exact met

/-- A round that goes on has visited one declaration more, and there was room for it. -/
theorem visited_of_onward {next : AliasWalk} (onward : w.round t layout requested = .ok (.onward next)) :
    w.visited.length ≤ longestChain ∧ next.visited.length = w.visited.length + 1 := by
  obtain ⟨room, m, name, _, _, met⟩ := round_ok.mp onward
  obtain ⟨decl, _, _, shape⟩ := meet_onward.mp met
  refine ⟨room, ?_⟩
  rw [shape, List.length_cons]

end

/-- Rounds until a struct is reached or a round fails. -/
def follow (t : File.Tree) (layout : CrateLayout) (requested : String) (w : AliasWalk) :
    Except ResolutionError (Module × StructDecl) :=
  match _ended : w.round t layout requested with
  | .error fault => .error fault
  | .ok (.arrived m decl) => .ok (m, decl)
  | .ok (.onward next) => next.follow t layout requested
termination_by longestChain + 1 - w.visited.length
decreasing_by
  have grown := visited_of_onward _ended
  omega

end AliasWalk

end Accessors
