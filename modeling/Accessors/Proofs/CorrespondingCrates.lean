import Accessors.Proofs.AliasChain

/-!
Names resolved in two crates at once. The modules of the two tell the same of every name, but the targets of aliases
may differ. As long as corresponding targets are the same or lead to corresponding declarations, the aliases are
followed through the two crates in step, so that both answers are the same struct or errors that correspond.
-/

namespace Accessors

open File (Tree)

/-- Items that a walk takes alike, whatever else they say. -/
inductive Item.Alike (targets : Ty → Ty → Prop) : Item → Item → Prop where
  | struct (decl : StructDecl) : Alike targets (.struct decl) (.struct decl)
  | typeAlias {decl decl' : AliasDecl} (same : targets decl.target decl'.target) :
      Alike targets (.typeAlias decl) (.typeAlias decl')
  | other {item item' : Item} (noStruct : ∀ decl, item ≠ .struct decl) (noAlias : ∀ decl, item ≠ .typeAlias decl)
      (noStruct' : ∀ decl, item' ≠ .struct decl) (noAlias' : ∀ decl, item' ≠ .typeAlias decl) :
      Alike targets item item'

theorem Item.Alike.refl {targets : Ty → Ty → Prop} (same : ∀ target, targets target target) (item : Item) :
    Item.Alike targets item item := by
  cases item with
  | struct decl => exact .struct decl
  | typeAlias decl => exact .typeAlias (same decl.target)
  | _ => apply Item.Alike.other <;> simp

/-- Modules of one path and the same imports, in which every name is declared alike. -/
structure Module.Alike (targets : Module → Module → Ty → Ty → Prop) (m m' : Module) : Prop where
  segments : m'.segments = m.segments
  imports : m'.imports = m.imports
  lookups : ∀ name, Option.Rel (fun s s' => s'.kind = s.kind ∧ Item.Alike (targets m m') s.item s'.item)
    (Symbol.find? m.symbols name) (Symbol.find? m'.symbols name)

/-- Loading gives modules that are alike, or fails in ways that correspond. -/
inductive Module.LoadsAlike (targets : Module → Module → Ty → Ty → Prop)
    (errors : ResolutionError → ResolutionError → Prop) :
    Except ResolutionError Module → Except ResolutionError Module → Prop where
  | loaded {m m' : Module} (alike : m.Alike targets m') : LoadsAlike targets errors (.ok m) (.ok m')
  | failed {e e' : ResolutionError} (same : errors e e') : LoadsAlike targets errors (.error e) (.error e')

/-- Which targets of aliases and which errors correspond in two crates that load alike. -/
structure Correspondence (t t' : Tree) (layout : CrateLayout) where
  targets : Module → Module → Ty → Ty → Prop
  errors : ResolutionError → ResolutionError → Prop
  sameError : ∀ e, errors e e
  loads : ∀ rest, Module.LoadsAlike targets errors (Module.loadSegments t layout ("crate" :: rest))
    (Module.loadSegments t' layout ("crate" :: rest))
  /-- Targets that differ have no arguments and lead to one declaration. -/
  leads : ∀ {m m' : Module} {target target' : Ty}, m.Alike targets m' → targets m m' target target' →
    target' = target ∨ target.hasArgs = false ∧ target'.hasArgs = false ∧ ∃ n n' name item, n.Alike targets n'
      ∧ m.Leads t layout target n name ∧ m'.Leads t' layout target' n' name ∧ n.Finds name item

namespace Module.Alike

variable {targets : Module → Module → Ty → Ty → Prop} {m m' : Module}

theorem refl (same : ∀ target, targets m m target target) : m.Alike targets m where
  segments := rfl
  imports := rfl
  lookups name := by
    cases Symbol.find? m.symbols name with
    | none => exact .none
    | some symbol => exact .some ⟨rfl, .refl same symbol.item⟩

theorem path (alike : m.Alike targets m') : m'.path = m.path := by
  unfold Module.path
  rw [alike.segments]

theorem visit_key (alike : m.Alike targets m') (name : String) : visitKey m' name = visitKey m name := by
  unfold visitKey
  rw [alike.path]

/-- A name is declared in both modules or in neither. -/
theorem declared_or_not (alike : m.Alike targets m') (name : String) :
    (Symbol.find? m.symbols name = none ∧ Symbol.find? m'.symbols name = none)
      ∨ ∃ s s', Symbol.find? m.symbols name = some s ∧ Symbol.find? m'.symbols name = some s' ∧ s'.kind = s.kind
        ∧ Item.Alike (targets m m') s.item s'.item := by
  have told := alike.lookups name
  revert told
  generalize Symbol.find? m.symbols name = here
  generalize Symbol.find? m'.symbols name = there
  rintro (⟨kinds, items⟩ | _)
  · exact Or.inr ⟨_, _, rfl, rfl, kinds, items⟩
  · exact Or.inl ⟨rfl, rfl⟩

theorem declares_type (alike : m.Alike targets m') (name : String) :
    (Symbol.find? m'.symbols name).any (·.kind.isType) = (Symbol.find? m.symbols name).any (·.kind.isType) := by
  obtain ⟨here, there⟩ | ⟨s, s', here, there, kinds, _⟩ := alike.declared_or_not name
  · rw [here, there]
  · simp [here, there, kinds]

/-- A target points to the same place wherever it stands. -/
theorem classify (alike : m.Alike targets m') (target : Ty) :
    AliasTarget.classify m' target = AliasTarget.classify m target := by
  have absolute (first : String) (rest : List String) :
      AliasTarget.absolutePath m' first rest = AliasTarget.absolutePath m first rest := by
    unfold AliasTarget.absolutePath
    rw [alike.imports, alike.segments]
  match target with
  | .paren inner => simpa only [AliasTarget.classify] using alike.classify inner
  | .path false segments => simp only [AliasTarget.classify, alike.imports, alike.declares_type, absolute]
  | .path true _ | .projection _ _ _ _ | .reference _ _ _ | .pointer _ _ | .slice _ | .array _ _ | .tuple _ | .never
  | .infer | .object _ _ | .opaqueImpl _ | .function _ _ _ _ _ _ | .verbatim _ =>
      simp only [AliasTarget.classify, alike.imports]

end Module.Alike

namespace Correspondence

variable {t t' : Tree} {layout : CrateLayout} (c : Correspondence t t' layout)

/-- Walks that are equally far. -/
structure InStep (w w' : AliasWalk) : Prop where
  modules : w.module.Alike c.targets w'.module
  targets : w'.target = w.target ∨ c.targets w.module w'.module w.target w'.target
  visited : w'.visited = w.visited

/-- Rounds that come to the same. -/
inductive RoundsAlike : Except ResolutionError AliasRound → Except ResolutionError AliasRound → Prop where
  | failed {e e' : ResolutionError} (same : c.errors e e') : RoundsAlike (.error e) (.error e')
  | arrived {m m' : Module} (alike : m.Alike c.targets m') (decl : StructDecl) :
      RoundsAlike (.ok (.arrived m decl)) (.ok (.arrived m' decl))
  | onward {w w' : AliasWalk} (step : c.InStep w w') : RoundsAlike (.ok (.onward w)) (.ok (.onward w'))

/-- Walks that end at the same struct or in errors that correspond. -/
inductive EndsAlike :
    Except ResolutionError (Module × StructDecl) → Except ResolutionError (Module × StructDecl) → Prop where
  | failed {e e' : ResolutionError} (same : c.errors e e') : EndsAlike (.error e) (.error e')
  | found {m m' : Module} (alike : m.Alike c.targets m') (decl : StructDecl) :
      EndsAlike (.ok (m, decl)) (.ok (m', decl))

/-- Answers that are the same struct or errors that correspond. -/
inductive Answers : Except ResolutionError ResolvedStruct → Except ResolutionError ResolvedStruct → Prop where
  | failed {e e' : ResolutionError} (same : c.errors e e') : Answers (.error e) (.error e')
  | resolved (s : ResolvedStruct) : Answers (.ok s) (.ok s)

variable {c} {requested : String} {w w' : AliasWalk} {n n' : Module} {name : String}

/-- What is declared under one name in modules that are alike is met alike, if the targets are written alike or
something is declared and they have no arguments. -/
theorem meet_alike (visited : w'.visited = w.visited) (args : w'.target.hasArgs = w.target.hasArgs)
    (texts : Signature.ty w'.module.imports w'.target = Signature.ty w.module.imports w.target
      ∨ w.target.hasArgs = false ∧ ∃ item, n.Finds name item)
    (alike : n.Alike c.targets n') : c.RoundsAlike (w.meet requested n name) (w'.meet requested n' name) := by
  unfold AliasWalk.meet
  obtain ⟨here, there⟩ | ⟨s, s', here, there, kinds, items⟩ := alike.declared_or_not name
  · rcases texts with written | ⟨_, _, symbol, lookup, _⟩
    · simp only [here, there, written]
      exact .failed (c.sameError _)
    · rw [here] at lookup
      cases lookup
  · simp only [here, there, args, kinds]
    have refused (generic : w.target.hasArgs = true) :
        Signature.ty w'.module.imports w'.target = Signature.ty w.module.imports w.target := by
      rcases texts with written | ⟨plain, _⟩
      · exact written
      · rw [plain] at generic
        cases generic
    generalize s.item = item at items
    generalize s'.item = item' at items
    cases items with
    | struct decl =>
        cases generic : w.target.hasArgs with
        | false => exact .arrived alike decl
        | true =>
            simp only [refused generic, if_true]
            exact .failed (c.sameError _)
    | typeAlias targets =>
        cases generic : w.target.hasArgs with
        | false => exact .onward ⟨alike, Or.inr targets, by simp only [visited, alike.visit_key]⟩
        | true =>
            simp only [refused generic, if_true]
            exact .failed (c.sameError _)
    | other noStruct noAlias noStruct' noAlias' =>
        cases item <;> cases item' <;> first | exact .failed (c.sameError _) | simp_all

/-- Equally far walks go one round alike. -/
theorem InStep.round (step : c.InStep w w') (requested : String) :
    c.RoundsAlike (w.round t layout requested) (w'.round t' layout requested) := by
  unfold AliasWalk.round
  rw [step.visited]
  by_cases full : w.visited.length > longestChain
  · rw [if_pos full, if_pos full]
    exact .failed (c.sameError _)
  rw [if_neg full, if_neg full]
  have met {n n' : Module} (alike : n.Alike c.targets n') (name : String)
      (args : w'.target.hasArgs = w.target.hasArgs)
      (texts : Signature.ty w'.module.imports w'.target = Signature.ty w.module.imports w.target
        ∨ w.target.hasArgs = false ∧ ∃ item, n.Finds name item) :
      c.RoundsAlike
        (if visitKey n name ∈ w.visited then .error (.aliasCycle requested) else w.meet requested n name)
        (if visitKey n' name ∈ w.visited then .error (.aliasCycle requested) else w'.meet requested n' name) := by
    rw [alike.visit_key]
    split
    · exact .failed (c.sameError _)
    · exact meet_alike step.visited args texts alike
  have differ : w'.target = w.target ∨ w.target.hasArgs = false ∧ w'.target.hasArgs = false
      ∧ ∃ n n' name item, n.Alike c.targets n' ∧ w.module.Leads t layout w.target n name
        ∧ w'.module.Leads t' layout w'.target n' name ∧ n.Finds name item := by
    rcases step.targets with same | corresponding
    · exact Or.inl same
    · exact c.leads step.modules corresponding
  rcases differ with same | ⟨plain, plain', n, n', name, item, alike, leads, leads', finds⟩
  · have texts : Signature.ty w'.module.imports w'.target = Signature.ty w.module.imports w.target := by
      rw [same, step.modules.imports]
    have args : w'.target.hasArgs = w.target.hasArgs := by rw [same]
    unfold followTarget
    rw [same, step.modules.classify]
    rw [same] at met texts
    cases points : AliasTarget.classify w.module w.target with
    | here name => exact met step.modules name rfl (Or.inl texts)
    | foreign written => exact .failed (c.sameError _)
    | inModule segments name =>
        obtain ⟨rest, rfl⟩ := AliasTarget.classify_in_module points
        have loads := c.loads rest
        dsimp only
        revert loads
        generalize Module.loadSegments t layout ("crate" :: rest) = loaded
        generalize Module.loadSegments t' layout ("crate" :: rest) = loaded'
        rintro (alike | same)
        · exact met alike name rfl (Or.inl texts)
        · exact .failed same
  · rw [follow_target_ok.mpr leads, follow_target_ok.mpr leads']
    exact met alike name (by rw [plain, plain']) (Or.inr ⟨plain, item, finds⟩)

/-- Equally far walks end alike. -/
theorem InStep.follow (step : c.InStep w w') (requested : String) :
    c.EndsAlike (w.follow t layout requested) (w'.follow t' layout requested) := by
  have rounds := step.round requested
  fun_induction AliasWalk.follow t layout requested w generalizing w' with
  | case1 w e failed =>
      rw [failed] at rounds
      generalize other : w'.round t' layout requested = out at rounds
      cases rounds with
      | failed same =>
          rw [AliasWalk.follow_of_error other]
          exact .failed same
  | case2 w n decl arrived =>
      rw [arrived] at rounds
      generalize other : w'.round t' layout requested = out at rounds
      cases rounds with
      | arrived alike =>
          rw [AliasWalk.follow_of_arrived other]
          exact .found alike decl
  | case3 w next onward ih =>
      rw [onward] at rounds
      generalize other : w'.round t' layout requested = out at rounds
      cases rounds with
      | onward further =>
          rw [AliasWalk.follow_of_onward other]
          exact ih further (further.round requested)

/-- A name is resolved alike in modules that are alike. -/
theorem answers (c : Correspondence t t' layout) {m m' : Module} (alike : m.Alike c.targets m') (name : String) :
    c.Answers (resolveStruct t layout m name) (resolveStruct t' layout m' name) := by
  unfold resolveStruct
  obtain ⟨here, there⟩ | ⟨s, s', here, there, kinds, items⟩ := alike.declared_or_not name
  · simp only [here, there, alike.path]
    exact .failed (c.sameError _)
  · simp only [here, there, kinds]
    split
    · exact .failed (c.sameError _)
    · generalize s.item = item at items
      generalize s'.item = item' at items
      cases items with
      | struct decl =>
          have same : ResolvedStruct.ofDecl name m' decl = ResolvedStruct.ofDecl name m decl := by
            unfold ResolvedStruct.ofDecl
            rw [alike.path, alike.imports]
          simp only [same]
          exact .resolved _
      | @typeAlias decl decl' targets =>
          have step : c.InStep (.start m name decl.target) (.start m' name decl'.target) :=
            ⟨alike, Or.inr targets, by simp only [AliasWalk.start, alike.visit_key]⟩
          have ends := step.follow name
          simp only
          revert ends
          generalize (AliasWalk.start m name decl.target).follow t layout name = out
          generalize (AliasWalk.start m' name decl'.target).follow t' layout name = out'
          rintro (same | ⟨found, struct⟩)
          · exact .failed same
          · simp only [bind, Except.bind, alike.path, found.path]
            split
            · exact .failed (c.sameError _)
            · have same : ∀ {n n' : Module}, n.Alike c.targets n' → ResolvedStruct.ofDecl name n' struct
                  = ResolvedStruct.ofDecl name n struct := by
                intro n n' found
                unfold ResolvedStruct.ofDecl
                rw [found.path, found.imports]
              rw [same found]
              exact .resolved _
      | other noStruct noAlias noStruct' noAlias' =>
          cases item <;> cases item' <;> first | exact .failed (c.sameError _) | simp_all

end Correspondence

end Accessors
