import Accessors.Proofs.RemarkedCrates

/-!
Following aliases through crates that differ in marks. Two walks go side by side, round by round, for what a target
leads to is the same but for marks, and what was visited by the one was visited by the other, though the keys may
differ. A walk that comes back to an alias it passed goes round for ever and is told to, under whatever spelling. So
the answers are alike, unless a walk comes to a module that is named with a mark, or back to an alias by a target
with arguments and under a spelling that it was not visited under.
-/

namespace Accessors

open File (Tree)

namespace AliasWalk

variable {t t' : Tree} {layout : CrateLayout} {requested : String} {w next last w' : AliasWalk}

/-- The walk comes to another one in a number of rounds. -/
def Comes (t : Tree) (layout : CrateLayout) (requested : String) : AliasWalk → AliasWalk → Prop :=
  Relation.ReflTransGen fun w next => w.round t layout requested = .ok (.onward next)

/-- There is room for a further round. -/
def HasRoom (w : AliasWalk) : Prop := w.visited.length ≤ longestChain

/-- The target has arguments and leads to an alias that was visited, but under another spelling of its name. -/
def Returns (t : Tree) (layout : CrateLayout) (w : AliasWalk) : Prop :=
  w.target.hasArgs = true ∧ ∃ back name spelled decl, w.module.Leads t layout w.target back name
    ∧ back.Finds name (.typeAlias decl) ∧ visitKey back name ∉ w.visited
    ∧ unraw spelled = unraw name ∧ visitKey back spelled ∈ w.visited

/-- The walk comes to a target that leads to a module named with a mark. -/
def ComesToMarked (t : Tree) (layout : CrateLayout) (requested : String) (w : AliasWalk) : Prop :=
  ∃ last, w.Comes t layout requested last ∧ last.HasRoom
    ∧ (AliasTarget.classify last.module last.target).Marked

/-- The walk comes to a target that returns under another spelling. -/
def ComesToReturn (t : Tree) (layout : CrateLayout) (requested : String) (w : AliasWalk) : Prop :=
  ∃ last, w.Comes t layout requested last ∧ last.HasRoom ∧ last.Returns t layout

theorem follow_of_comes (comes : w.Comes t layout requested last) :
    w.follow t layout requested = last.follow t layout requested := by
  induction comes using Relation.ReflTransGen.head_induction_on with
  | refl => rfl
  | head round _ ih => rw [follow_of_onward round, ih]

theorem follow_marked (marked : w.ComesToMarked t layout requested) :
    ∃ e, w.follow t layout requested = .error e ∧ e.kind = .moduleLoad := by
  obtain ⟨last, comes, room, marked⟩ := marked
  obtain ⟨e, failed, kind⟩ := follow_target_marked t layout requested marked
  refine ⟨e, ?_, kind⟩
  rw [follow_of_comes comes]
  apply follow_of_error
  rw [round, if_neg (Nat.not_lt.mpr room), failed]

/-- A round that returns under another spelling is refused for its arguments. -/
theorem round_of_returns (requested : String) (room : w.HasRoom) (returns : w.Returns t layout) :
    ∃ e, w.round t layout requested = .error e ∧ e.kind = .unsupportedAlias := by
  obtain ⟨args, back, name, _, decl, leads, ⟨symbol, found, item⟩, unseen, _⟩ := returns
  rw [round, if_neg (Nat.not_lt.mpr room), follow_target_ok.mpr leads]
  simp only
  rw [if_neg unseen, meet, found]
  simp only [item, args, if_true]
  exact ⟨_, rfl, rfl⟩

theorem follow_returning (returning : w.ComesToReturn t layout requested) :
    ∃ e, w.follow t layout requested = .error e ∧ e.kind = .unsupportedAlias := by
  obtain ⟨last, comes, room, returns⟩ := returning
  obtain ⟨e, failed, kind⟩ := round_of_returns requested room returns
  exact ⟨e, by rw [follow_of_comes comes, follow_of_error failed], kind⟩

theorem marked_of_onward (onward : w.round t layout requested = .ok (.onward next))
    (marked : next.ComesToMarked t layout requested) : w.ComesToMarked t layout requested := by
  obtain ⟨last, comes, rest⟩ := marked
  exact ⟨last, comes.head onward, rest⟩

theorem return_of_onward (onward : w.round t layout requested = .ok (.onward next)) :
    w.ComesToReturn t layout requested ↔ next.ComesToReturn t layout requested := by
  constructor
  · rintro ⟨last, comes, room, returns⟩
    rcases comes.cases_head with rfl | ⟨second, first, rest⟩
    · obtain ⟨e, failed, _⟩ := round_of_returns requested room returns
      exact absurd (onward.symm.trans failed) (by simp)
    · obtain rfl : second = next := by
        have same := first.symm.trans onward
        cases same
        rfl
      exact ⟨last, rest, room, returns⟩
  · rintro ⟨last, comes, rest⟩
    exact ⟨last, comes.head onward, rest⟩

/-! Circles. -/

/-- A walk whose next step leads back to where it has been goes round for ever. -/
theorem follow_circle {back : Module × Ty} (step : AliasStep t layout (w.module, w.target) back)
    (reaches : Relation.ReflTransGen (AliasStep t layout) back (w.module, w.target)) :
    w.follow t layout requested = .error (.aliasCycle requested) := by
  refine follow_closed (fun place => Relation.ReflTransGen (AliasStep t layout) back place
    ∧ Relation.ReflTransGen (AliasStep t layout) place (w.module, w.target)) ?_ ⟨reaches, .refl⟩
  rintro place ⟨from_, to_⟩
  rcases to_.cases_head with rfl | ⟨next, first, rest⟩
  · exact ⟨back, step, .refl, reaches⟩
  · exact ⟨next, first, from_.tail first, rest⟩

/-! What a walk has passed. -/

/-- The aliases that a walk has passed, each by its module and the spelling of its name: they are what was visited,
and from each of them the walk has come on to where it is. -/
structure Trail (t : Tree) (layout : CrateLayout) (w : AliasWalk) (passed : List (Module × String)) : Prop where
  loaded : w.module.Loaded t layout
  visited : w.visited = passed.map fun p => visitKey p.1 p.2
  behind : ∀ p ∈ passed, p.1.Loaded t layout ∧ ∃ decl, p.1.Finds p.2 (.typeAlias decl)
    ∧ Relation.ReflTransGen (AliasStep t layout) (p.1, decl.target) (w.module, w.target)

namespace Trail

variable {passed : List (Module × String)} {back : Module} {name : String} {decl : AliasDecl}

theorem start {m : Module} (loaded : m.Loaded t layout) (finds : m.Finds name (.typeAlias decl)) :
    (AliasWalk.start m name decl.target).Trail t layout [(m, name)] where
  loaded := loaded
  visited := rfl
  behind := by
    intro p member
    obtain rfl := List.mem_singleton.mp member
    exact ⟨loaded, decl, finds, .refl⟩

theorem onward (trail : w.Trail t layout passed) (leads : w.module.Leads t layout w.target back name)
    (plain : w.target.hasArgs = false) (finds : back.Finds name (.typeAlias decl)) :
    (⟨back, decl.target, visitKey back name :: w.visited⟩ : AliasWalk).Trail t layout ((back, name) :: passed) where
  loaded := leads.loaded trail.loaded
  visited := by rw [trail.visited, List.map_cons]
  behind := by
    have step : AliasStep t layout (w.module, w.target) (back, decl.target) := ⟨name, decl, leads, plain, finds, rfl⟩
    intro p member
    rcases List.mem_cons.mp member with rfl | earlier
    · exact ⟨leads.loaded trail.loaded, decl, finds, .refl⟩
    · obtain ⟨loaded, other, found, reaches⟩ := trail.behind p earlier
      exact ⟨loaded, other, found, reaches.tail step⟩

/-- A key was visited just if its alias was passed under this spelling. -/
theorem visited_iff (trail : w.Trail t layout passed) (loaded : back.Loaded t layout)
    (plain : Text.Colonless name) : visitKey back name ∈ w.visited ↔ (back, name) ∈ passed := by
  rw [trail.visited]
  constructor
  · intro seen
    obtain ⟨p, member, same⟩ := List.mem_map.mp seen
    obtain ⟨below, _, found, _⟩ := trail.behind p member
    obtain ⟨modules, names⟩ := Module.visit_key_inj_of_colonless below loaded found.colonless plain same
    rwa [← modules, ← names]
  · exact fun member => List.mem_map.mpr ⟨(back, name), member, rfl⟩

/-- The alias was passed, under whatever spelling. -/
def Passed (passed : List (Module × String)) (back : Module) (name : String) : Prop :=
  ∃ spelled, unraw spelled = unraw name ∧ (back, spelled) ∈ passed

/-- A walk whose target leads back to an alias that it passed is told as a cycle, if the target has no arguments. -/
theorem follow_of_passed (requested : String) (trail : w.Trail t layout passed)
    (leads : w.module.Leads t layout w.target back name) (plain : w.target.hasArgs = false)
    (finds : back.Finds name (.typeAlias decl)) (known : Passed passed back name) :
    w.follow t layout requested = .error (.aliasCycle requested) := by
  obtain ⟨spelled, same, member⟩ := known
  obtain ⟨_, other, found, reaches⟩ := trail.behind _ member
  obtain ⟨symbol, lookup, item⟩ := finds
  obtain ⟨symbol', lookup', item'⟩ := found
  simp only at lookup'
  rw [Symbol.find_congr same, lookup] at lookup'
  obtain rfl := Option.some.inj lookup'
  obtain rfl := Item.typeAlias.inj (item.symm.trans item')
  exact follow_circle ⟨name, decl, leads, plain, ⟨symbol, lookup, item⟩, rfl⟩ reaches

end Trail

/-! Rounds that end a walk. -/

theorem comes_of_end (ends : ∀ next, w.round t layout requested ≠ .ok (.onward next))
    (comes : w.Comes t layout requested last) : last = w := by
  rcases comes.cases_head with same | ⟨next, first, _⟩
  · exact same.symm
  · exact absurd first (ends next)

theorem return_of_end (ends : ∀ next, w.round t layout requested ≠ .ok (.onward next)) (room : w.HasRoom) :
    w.ComesToReturn t layout requested ↔ w.Returns t layout := by
  constructor
  · rintro ⟨last, comes, _, returns⟩
    rwa [comes_of_end ends comes] at returns
  · exact fun returns => ⟨w, .refl, room, returns⟩

/-- Two walks end alike: at structs of the same fields in modules of one outline, or with errors of one kind. -/
def SameEnd : Except ResolutionError (Module × StructDecl) → Except ResolutionError (Module × StructDecl) → Prop
  | .ok (m, decl), .ok (m', decl') => m.outline = m'.outline ∧ decl.fields = decl'.fields
  | .error e, .error e' => e.kind = e'.kind
  | _, _ => False

/-- Two walks end alike, and both by a return under another spelling or neither. -/
structure EndAlike (t t' : Tree) (layout : CrateLayout) (requested : String) (w w' : AliasWalk) : Prop where
  ends : SameEnd (w.follow t layout requested) (w'.follow t' layout requested)
  returns : w.ComesToReturn t layout requested ↔ w'.ComesToReturn t' layout requested

theorem EndAlike.symm (alike : EndAlike t t' layout requested w w') : EndAlike t' t layout requested w' w where
  ends := by
    have ends := alike.ends
    revert ends
    cases w.follow t layout requested <;> cases w'.follow t' layout requested
    · exact Eq.symm
    · exact id
    · exact id
    · exact fun same => ⟨same.1.symm, same.2.symm⟩
  returns := alike.returns.symm

/-- A walk that does not end by being refused for arguments does not return. -/
theorem no_return_of_end {out : Except ResolutionError (Module × StructDecl)}
    (ended : w.follow t layout requested = out) (other : ∀ e, out = .error e → e.kind ≠ .unsupportedAlias) :
    ¬ w.ComesToReturn t layout requested := by
  intro returning
  obtain ⟨e, failed, kind⟩ := follow_returning returning
  exact other e (ended.symm.trans failed) kind

/-- A walk that finds a struct comes to nothing of the kind. -/
theorem plain_of_found {found : Module × StructDecl} (ended : w.follow t layout requested = .ok found) :
    ¬ w.ComesToMarked t layout requested ∧ ¬ w.ComesToReturn t layout requested := by
  constructor
  · intro marked
    obtain ⟨e, failed, _⟩ := follow_marked marked
    exact absurd (ended.symm.trans failed) (by simp)
  · exact no_return_of_end ended fun _ failed => absurd failed (by simp)

theorem no_return_of_cycle {name : String} (cycle : w.follow t layout requested = .error (.aliasCycle name)) :
    ¬ w.ComesToReturn t layout requested := by
  apply no_return_of_end cycle
  rintro _ ⟨⟩
  simp [ResolutionError.kind]

theorem end_alike_of_errors {e e' : ResolutionError} (failed : w.follow t layout requested = .error e)
    (failed' : w'.follow t' layout requested = .error e') (kinds : e.kind = e'.kind)
    (other : e.kind ≠ .unsupportedAlias) : EndAlike t t' layout requested w w' where
  ends := by rw [failed, failed']; exact kinds
  returns := by
    apply iff_of_false
    · apply no_return_of_end failed
      rintro _ ⟨⟩
      exact other
    · apply no_return_of_end failed'
      rintro _ ⟨⟩
      rwa [← kinds]

theorem end_alike_of_structs {m m' : Module} {decl decl' : StructDecl}
    (found : w.follow t layout requested = .ok (m, decl)) (found' : w'.follow t' layout requested = .ok (m', decl'))
    (modules : m.outline = m'.outline) (fields : decl.fields = decl'.fields) :
    EndAlike t t' layout requested w w' where
  ends := by rw [found, found']; exact ⟨modules, fields⟩
  returns := iff_of_false (plain_of_found found).2 (plain_of_found found').2

/-- Walks that are refused for arguments at the same round end alike if both return or neither. -/
theorem end_alike_of_refused {e e' : ResolutionError} (failed : w.round t layout requested = .error e)
    (failed' : w'.round t' layout requested = .error e') (kinds : e.kind = e'.kind) (room : w.HasRoom)
    (room' : w'.HasRoom) (returns : w.Returns t layout ↔ w'.Returns t' layout) :
    EndAlike t t' layout requested w w' where
  ends := by rw [follow_of_error failed, follow_of_error failed']; exact kinds
  returns := by
    rw [return_of_end (by simp [failed]) room, return_of_end (by simp [failed']) room', returns]

/-! Walks side by side. -/

/-- Two walks are at targets of one outline in modules of one outline, and have passed the same aliases, each under its
own spelling of them. -/
structure Alongside (t t' : Tree) (layout : CrateLayout) (w w' : AliasWalk)
    (pairs : List ((Module × String) × (Module × String))) : Prop where
  here : w.Trail t layout (pairs.map Prod.fst)
  there : w'.Trail t' layout (pairs.map Prod.snd)
  modules : w.module.outline = w'.module.outline
  targets : w.target.outline = w'.target.outline
  alike : ∀ pair ∈ pairs, pair.1.1.outline = pair.2.1.outline ∧ unraw pair.1.2 = unraw pair.2.2

namespace Alongside

variable {pairs : List ((Module × String) × (Module × String))} {back back' : Module} {name name' : String}

theorem symm (alongside : Alongside t t' layout w w' pairs) : Alongside t' t layout w' w (pairs.map Prod.swap) where
  here := by simpa [Function.comp_def] using alongside.there
  there := by simpa [Function.comp_def] using alongside.here
  modules := alongside.modules.symm
  targets := alongside.targets.symm
  alike := List.forall_mem_map.mpr fun pair member =>
    ⟨(alongside.alike pair member).1.symm, (alongside.alike pair member).2.symm⟩

theorem lengths (alongside : Alongside t t' layout w w' pairs) : w'.visited.length = w.visited.length := by
  rw [alongside.here.visited, alongside.there.visited]
  simp

theorem args (alongside : Alongside t t' layout w w' pairs) : w'.target.hasArgs = w.target.hasArgs := by
  rw [← w.target.has_args_of_outline, ← w'.target.has_args_of_outline, alongside.targets]

theorem room (alongside : Alongside t t' layout w w' pairs) (room : w.HasRoom) : w'.HasRoom := by
  rwa [HasRoom, alongside.lengths]

/-- Two targets side by side lead to these names. -/
structure Lead (t t' : Tree) (layout : CrateLayout) (w w' : AliasWalk) (back back' : Module) (name name' : String) :
    Prop where
  here : w.module.Leads t layout w.target back name
  there : w'.module.Leads t' layout w'.target back' name'
  modules : back.outline = back'.outline
  names : unraw name = unraw name'

theorem Lead.symm (lead : Lead t t' layout w w' back back' name name') :
    Lead t' t layout w' w back' back name' name :=
  ⟨lead.there, lead.here, lead.modules.symm, lead.names.symm⟩

/-- What the one walk passed, the other did. -/
theorem passed (alongside : Alongside t t' layout w w' pairs) (lead : Lead t t' layout w w' back back' name name')
    (known : Trail.Passed (pairs.map Prod.fst) back name) : Trail.Passed (pairs.map Prod.snd) back' name' := by
  obtain ⟨spelled, same, member⟩ := known
  obtain ⟨pair, listed, shape⟩ := List.mem_map.mp member
  obtain ⟨modules, names⟩ := alongside.alike pair listed
  rw [shape] at modules names
  have listed' : pair.2 ∈ pairs.map Prod.snd := List.mem_map_of_mem listed
  have module : pair.2.1 = back' := by
    apply Module.unique_of_outline (alongside.there.behind _ listed').1 (lead.there.loaded alongside.there.loaded)
    rw [← modules, lead.modules]
  refine ⟨pair.2.2, ?_, ?_⟩
  · rw [← names, same, lead.names]
  · rwa [← module]

theorem passed_iff (alongside : Alongside t t' layout w w' pairs)
    (lead : Lead t t' layout w w' back back' name name') :
    Trail.Passed (pairs.map Prod.fst) back name ↔ Trail.Passed (pairs.map Prod.snd) back' name' := by
  constructor
  · exact alongside.passed lead
  · intro known
    have swapped := alongside.symm.passed lead.symm (by simpa [Function.comp_def] using known)
    simpa [Function.comp_def] using swapped

end Alongside

/-- A target with arguments that leads to an alias returns if the alias was passed, under another spelling. -/
theorem returns_iff {passed : List (Module × String)} {back : Module} {name : String} {decl : AliasDecl}
    (trail : w.Trail t layout passed) (leads : w.module.Leads t layout w.target back name)
    (args : w.target.hasArgs = true) (finds : back.Finds name (.typeAlias decl))
    (unseen : visitKey back name ∉ w.visited) : w.Returns t layout ↔ Trail.Passed passed back name := by
  have loaded := leads.loaded trail.loaded
  have spells {spelled : String} (same : unraw spelled = unraw name) :
      visitKey back spelled ∈ w.visited ↔ (back, spelled) ∈ passed := by
    obtain ⟨symbol, lookup, item⟩ := finds
    have found : back.Finds spelled (.typeAlias decl) := ⟨symbol, by rw [Symbol.find_congr same, lookup], item⟩
    exact trail.visited_iff loaded found.colonless
  constructor
  · rintro ⟨_, other, called, spelled, _, leads', _, _, same, seen⟩
    obtain ⟨rfl, rfl⟩ := leads.unique leads'
    exact ⟨spelled, same, (spells same).mp seen⟩
  · rintro ⟨spelled, same, member⟩
    exact ⟨args, back, name, spelled, decl, leads, finds, unseen, same, (spells same).mpr member⟩

theorem follow_seen {back : Module} {name : String} (room : w.HasRoom)
    (leads : w.module.Leads t layout w.target back name) (seen : visitKey back name ∈ w.visited) :
    w.follow t layout requested = .error (.aliasCycle requested) := by
  apply follow_of_error
  rw [round, if_neg (Nat.not_lt.mpr room), follow_target_ok.mpr leads]
  simp only
  rw [if_pos seen]

theorem round_unseen (requested : String) {back : Module} {name : String} (room : w.HasRoom)
    (leads : w.module.Leads t layout w.target back name) (unseen : visitKey back name ∉ w.visited) :
    w.round t layout requested = w.meet requested back name := by
  rw [round, if_neg (Nat.not_lt.mpr room), follow_target_ok.mpr leads]
  simp only
  rw [if_neg unseen]

/-- A declaration with arguments in front of it is refused, be it a struct or an alias. -/
theorem meet_args (requested : String) {m : Module} {name : String} {item : Item} (finds : m.Finds name item)
    (leading : (∃ decl, item = .struct decl) ∨ ∃ decl, item = .typeAlias decl) (args : w.target.hasArgs = true) :
    ∃ e, w.meet requested m name = .error e ∧ e.kind = .unsupportedAlias := by
  obtain ⟨symbol, lookup, rfl⟩ := finds
  rw [meet, lookup]
  rcases leading with ⟨decl, item⟩ | ⟨decl, item⟩ <;>
  · simp only [item, args, if_true]
    exact ⟨_, rfl, rfl⟩

theorem meet_other (requested : String) {m : Module} {name : String}
    (noStruct : ∀ decl, ¬ m.Finds name (.struct decl))
    (noAlias : ∀ decl, ¬ m.Finds name (.typeAlias decl)) :
    ∃ e, w.meet requested m name = .error e ∧ e.kind = .notAStruct := by
  unfold meet
  cases lookup : Symbol.find? m.symbols name with
  | none => exact ⟨_, rfl, rfl⟩
  | some symbol =>
      simp only
      split
      · next decl item => exact absurd ⟨symbol, lookup, item⟩ (noStruct decl)
      · next decl item => exact absurd ⟨symbol, lookup, item⟩ (noAlias decl)
      · exact ⟨_, rfl, rfl⟩

theorem not_returns_of_struct {back : Module} {name : String} {decl : StructDecl}
    (leads : w.module.Leads t layout w.target back name) (finds : back.Finds name (.struct decl)) :
    ¬ w.Returns t layout := by
  rintro ⟨_, other, called, _, _, leads', finds', _⟩
  obtain ⟨rfl, rfl⟩ := leads.unique leads'
  exact absurd (finds.unique finds') (by simp)

/-- What the first of two walks is told that come to one alias, if it knows the alias by its key and the second does
not: a cycle. The second is told so as well, unless its target returns with arguments. -/
theorem end_of_one_seen (requested : String) {pairs : List ((Module × String) × (Module × String))}
    {back back' : Module} {name name' : String} (alongside : Alongside t t' layout w w' pairs) (room : w.HasRoom)
    (lead : Alongside.Lead t t' layout w w' back back' name name') (seen : visitKey back name ∈ w.visited)
    (unseen : visitKey back' name' ∉ w'.visited) :
    w.follow t layout requested = .error (.aliasCycle requested)
      ∧ (EndAlike t t' layout requested w w' ∨ w'.ComesToReturn t' layout requested) := by
  have cycle : w.follow t layout requested = .error (.aliasCycle requested) := follow_seen room lead.here seen
  refine ⟨cycle, ?_⟩
  have loaded := lead.here.loaded alongside.here.loaded
  have member := (alongside.here.visited_iff loaded (lead.here.colonless alongside.here.loaded)).mp seen
  obtain ⟨_, decl, finds, _⟩ := alongside.here.behind _ member
  obtain ⟨other, finds', _⟩ := Module.alias_alike lead.modules lead.names finds
  have known : Trail.Passed (pairs.map Prod.snd) back' name' := alongside.passed lead ⟨name, rfl, member⟩
  cases args : w'.target.hasArgs with
  | true =>
      exact Or.inr ⟨w', .refl, alongside.room room,
        (returns_iff alongside.there lead.there args finds' unseen).mpr known⟩
  | false =>
      have cycle' := alongside.there.follow_of_passed requested lead.there args finds' known
      exact Or.inl (end_alike_of_errors cycle cycle' rfl (by simp [ResolutionError.kind]))

/-- Two walks end alike, or one of them is refused for a return that the other one is told as a cycle. -/
def EndNearby (t t' : Tree) (layout : CrateLayout) (requested : String) (w w' : AliasWalk) : Prop :=
  EndAlike t t' layout requested w w'
    ∨ w.ComesToReturn t layout requested ∧ w'.follow t' layout requested = .error (.aliasCycle requested)
    ∨ w'.ComesToReturn t' layout requested ∧ w.follow t layout requested = .error (.aliasCycle requested)

theorem end_nearby_of_onward {next' : AliasWalk} (onward : w.round t layout requested = .ok (.onward next))
    (onward' : w'.round t' layout requested = .ok (.onward next'))
    (later : EndNearby t t' layout requested next next') : EndNearby t t' layout requested w w' := by
  have same : w.follow t layout requested = next.follow t layout requested := follow_of_onward onward
  have same' : w'.follow t' layout requested = next'.follow t' layout requested := follow_of_onward onward'
  unfold EndNearby
  rw [same, same', return_of_onward onward, return_of_onward onward']
  rcases later with ⟨ends, returns⟩ | apart
  · refine Or.inl ⟨?_, ?_⟩
    · rwa [same, same']
    · rwa [return_of_onward onward, return_of_onward onward']
  · exact Or.inr apart

section

variable {pairs : List ((Module × String) × (Module × String))} {back back' : Module} {name name' : String}

theorem end_alike_without_room (alongside : Alongside t t' layout w w' pairs) (full : ¬ w.HasRoom) :
    EndAlike t t' layout requested w w' := by
  have long : w.visited.length > longestChain := Nat.not_le.mp full
  have long' : w'.visited.length > longestChain := by rwa [alongside.lengths]
  have cycle : w.follow t layout requested = .error (.aliasCycle requested) :=
    follow_of_error (by rw [round, if_pos long])
  have cycle' : w'.follow t' layout requested = .error (.aliasCycle requested) :=
    follow_of_error (by rw [round, if_pos long'])
  exact end_alike_of_errors cycle cycle' rfl (by simp [ResolutionError.kind])

/-- Of two walks that come to one alias, one at least knows it by its key. -/
theorem end_nearby_of_seen (alongside : Alongside t t' layout w w' pairs) (room : w.HasRoom)
    (lead : Alongside.Lead t t' layout w w' back back' name name')
    (seen : visitKey back name ∈ w.visited ∨ visitKey back' name' ∈ w'.visited) :
    EndNearby t t' layout requested w w' := by
  have room' := alongside.room room
  by_cases here : visitKey back name ∈ w.visited
  · by_cases there : visitKey back' name' ∈ w'.visited
    · have cycle : w.follow t layout requested = .error (.aliasCycle requested) := follow_seen room lead.here here
      have cycle' : w'.follow t' layout requested = .error (.aliasCycle requested) :=
        follow_seen room' lead.there there
      exact Or.inl (end_alike_of_errors cycle cycle' rfl (by simp [ResolutionError.kind]))
    · obtain ⟨cycle, alike | returns⟩ := end_of_one_seen requested alongside room lead here there
      · exact Or.inl alike
      · exact Or.inr (Or.inr ⟨returns, cycle⟩)
  · have there := seen.resolve_left here
    obtain ⟨cycle', alike | returns⟩ :=
      end_of_one_seen requested alongside.symm room' lead.symm there here
    · exact Or.inl alike.symm
    · exact Or.inr (Or.inl ⟨returns, cycle'⟩)

theorem end_alike_at_struct {decl : StructDecl} (alongside : Alongside t t' layout w w' pairs) (room : w.HasRoom)
    (lead : Alongside.Lead t t' layout w w' back back' name name') (unseen : visitKey back name ∉ w.visited)
    (unseen' : visitKey back' name' ∉ w'.visited) (finds : back.Finds name (.struct decl)) :
    EndAlike t t' layout requested w w' := by
  have room' := alongside.room room
  have met := round_unseen requested room lead.here unseen
  have met' := round_unseen requested room' lead.there unseen'
  obtain ⟨decl', finds', fields⟩ := Module.struct_alike lead.modules lead.names finds
  cases args : w.target.hasArgs with
  | true =>
      have args' := alongside.args.trans args
      obtain ⟨e, failed, kind⟩ := meet_args requested finds (Or.inl ⟨decl, rfl⟩) args
      obtain ⟨e', failed', kind'⟩ := meet_args requested finds' (Or.inl ⟨decl', rfl⟩) args'
      apply end_alike_of_refused (met.trans failed) (met'.trans failed') (kind.trans kind'.symm) room room'
      exact iff_of_false (not_returns_of_struct lead.here finds) (not_returns_of_struct lead.there finds')
  | false =>
      have args' := alongside.args.trans args
      have arrived := follow_of_arrived (met.trans (meet_arrived.mpr ⟨finds, args, rfl⟩))
      have arrived' := follow_of_arrived (met'.trans (meet_arrived.mpr ⟨finds', args', rfl⟩))
      exact end_alike_of_structs arrived arrived' lead.modules fields.symm

/-- An alias that a target with arguments leads to is refused on both ways, and either way may return. -/
theorem end_alike_at_alias {decl : AliasDecl} (alongside : Alongside t t' layout w w' pairs) (room : w.HasRoom)
    (lead : Alongside.Lead t t' layout w w' back back' name name') (unseen : visitKey back name ∉ w.visited)
    (unseen' : visitKey back' name' ∉ w'.visited) (finds : back.Finds name (.typeAlias decl))
    (args : w.target.hasArgs = true) : EndAlike t t' layout requested w w' := by
  have room' := alongside.room room
  have args' := alongside.args.trans args
  have met := round_unseen requested room lead.here unseen
  have met' := round_unseen requested room' lead.there unseen'
  obtain ⟨decl', finds', _⟩ := Module.alias_alike lead.modules lead.names finds
  obtain ⟨e, failed, kind⟩ := meet_args requested finds (Or.inr ⟨decl, rfl⟩) args
  obtain ⟨e', failed', kind'⟩ := meet_args requested finds' (Or.inr ⟨decl', rfl⟩) args'
  apply end_alike_of_refused (met.trans failed) (met'.trans failed') (kind.trans kind'.symm) room room'
  rw [returns_iff alongside.here lead.here args finds unseen,
    returns_iff alongside.there lead.there args' finds' unseen']
  exact alongside.passed_iff lead

/-- From an alias that a target without arguments leads to, both walks go on side by side. -/
theorem onward_alongside (requested : String) {decl : AliasDecl} (alongside : Alongside t t' layout w w' pairs)
    (room : w.HasRoom) (lead : Alongside.Lead t t' layout w w' back back' name name')
    (unseen : visitKey back name ∉ w.visited) (unseen' : visitKey back' name' ∉ w'.visited)
    (finds : back.Finds name (.typeAlias decl)) (args : w.target.hasArgs = false) :
    ∃ next next' further, w.round t layout requested = .ok (.onward next)
      ∧ w'.round t' layout requested = .ok (.onward next') ∧ Alongside t t' layout next next' further := by
  have args' := alongside.args.trans args
  have met := round_unseen requested room lead.here unseen
  have met' := round_unseen requested (alongside.room room) lead.there unseen'
  obtain ⟨decl', finds', targets⟩ := Module.alias_alike lead.modules lead.names finds
  refine ⟨_, _, ((back, name), (back', name')) :: pairs, met.trans (meet_onward.mpr ⟨decl, finds, args, rfl⟩),
    met'.trans (meet_onward.mpr ⟨decl', finds', args', rfl⟩), ?_⟩
  exact ⟨alongside.here.onward lead.here args finds, alongside.there.onward lead.there args' finds', lead.modules,
    targets.symm, List.forall_mem_cons.mpr ⟨⟨lead.modules, lead.names⟩, alongside.alike⟩⟩

theorem end_alike_at_other (alongside : Alongside t t' layout w w' pairs) (room : w.HasRoom)
    (lead : Alongside.Lead t t' layout w w' back back' name name') (unseen : visitKey back name ∉ w.visited)
    (unseen' : visitKey back' name' ∉ w'.visited) (noStruct : ∀ decl, ¬ back.Finds name (.struct decl))
    (noAlias : ∀ decl, ¬ back.Finds name (.typeAlias decl)) : EndAlike t t' layout requested w w' := by
  have met := round_unseen requested room lead.here unseen
  have met' := round_unseen requested (alongside.room room) lead.there unseen'
  have noStruct' : ∀ decl, ¬ back'.Finds name' (.struct decl) := by
    intro decl finds
    obtain ⟨found, finds', _⟩ := Module.struct_alike lead.modules.symm lead.names.symm finds
    exact noStruct found finds'
  have noAlias' : ∀ decl, ¬ back'.Finds name' (.typeAlias decl) := by
    intro decl finds
    obtain ⟨found, finds', _⟩ := Module.alias_alike lead.modules.symm lead.names.symm finds
    exact noAlias found finds'
  obtain ⟨e, failed, kind⟩ := meet_other requested (w := w) noStruct noAlias
  obtain ⟨e', failed', kind'⟩ := meet_other requested (w := w') noStruct' noAlias'
  apply end_alike_of_errors (follow_of_error (met.trans failed)) (follow_of_error (met'.trans failed'))
    (kind.trans kind'.symm)
  rw [kind]
  decide

end

/-- Two walks side by side lead nowhere for the same reason, or to names of one outline, unless one of them comes to a
module named with a mark. -/
theorem lead_or_end (remarked : Remarked t t') {pairs : List ((Module × String) × (Module × String))}
    (alongside : Alongside t t' layout w w' pairs) (room : w.HasRoom)
    (plain : ¬ w.ComesToMarked t layout requested) (plain' : ¬ w'.ComesToMarked t' layout requested) :
    EndAlike t t' layout requested w w'
      ∨ ∃ back back' name name', Alongside.Lead t t' layout w w' back back' name name' := by
  have room' := alongside.room room
  have unmarked : ¬ (AliasTarget.classify w.module w.target).Marked := fun marked => plain ⟨w, .refl, room, marked⟩
  have unmarked' : ¬ (AliasTarget.classify w'.module w'.target).Marked :=
    fun marked => plain' ⟨w', .refl, room', marked⟩
  rcases follow_target_alike requested remarked alongside.here.loaded alongside.there.loaded
      alongside.modules alongside.targets unmarked unmarked' with
    ⟨e, e', failed, failed', kinds⟩ | ⟨back, back', name, name', leads, leads', modules, names⟩
  · have ended : w.follow t layout requested = .error e :=
      follow_of_error (by rw [round, if_neg (Nat.not_lt.mpr room), failed])
    have ended' : w'.follow t' layout requested = .error e' :=
      follow_of_error (by rw [round, if_neg (Nat.not_lt.mpr room'), failed'])
    exact Or.inl (end_alike_of_errors ended ended' kinds (follow_target_error failed))
  · exact Or.inr ⟨back, back', name, name', follow_target_ok.mp leads, follow_target_ok.mp leads', modules, names⟩

/-- Walks side by side that come to no module named with a mark end alike, or one of them is refused for a return that
the other one is told as a cycle. -/
theorem side_by_side (remarked : Remarked t t') {w w' : AliasWalk}
    {pairs : List ((Module × String) × (Module × String))} (alongside : Alongside t t' layout w w' pairs)
    (plain : ¬ w.ComesToMarked t layout requested) (plain' : ¬ w'.ComesToMarked t' layout requested) :
    EndNearby t t' layout requested w w' := by
  by_cases room : w.HasRoom
  case neg => exact Or.inl (end_alike_without_room alongside room)
  rcases lead_or_end remarked alongside room plain plain' with alike | ⟨back, back', name, name', lead⟩
  · exact Or.inl alike
  by_cases seen : visitKey back name ∈ w.visited ∨ visitKey back' name' ∈ w'.visited
  · exact end_nearby_of_seen alongside room lead seen
  obtain ⟨unseen, unseen'⟩ := not_or.mp seen
  by_cases isStruct : ∃ decl, back.Finds name (.struct decl)
  · obtain ⟨decl, finds⟩ := isStruct
    exact Or.inl (end_alike_at_struct alongside room lead unseen unseen' finds)
  by_cases isAlias : ∃ decl, back.Finds name (.typeAlias decl)
  · obtain ⟨decl, finds⟩ := isAlias
    cases args : w.target.hasArgs with
    | true => exact Or.inl (end_alike_at_alias alongside room lead unseen unseen' finds args)
    | false =>
        obtain ⟨next, next', further, onward, onward', beside⟩ :=
          onward_alongside requested alongside room lead unseen unseen' finds args
        -- The walks have visited equally many, so the room that the first has left is room for both.
        have grown := visited_of_onward onward
        exact end_nearby_of_onward onward onward' (side_by_side remarked beside
          (fun marked => plain (marked_of_onward onward marked))
          (fun marked => plain' (marked_of_onward onward' marked)))
  exact Or.inl (end_alike_at_other alongside room lead unseen unseen' (not_exists.mp isStruct) (not_exists.mp isAlias))
termination_by longestChain + 1 - w.visited.length
decreasing_by omega

end AliasWalk

end Accessors
