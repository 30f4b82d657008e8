import Accessors.Crate.Struct
import Accessors.Proofs.ModulePath

/-!
Following an alias finds the end of its chain. The chain is described without the loop: each of its targets leads
to a declaration, all of them but the last are aliases, and no target has arguments. The loop visits the chain in
order, and what it visited before cannot come again on the way to a struct, because from there the chain would be
longer than it is. So the visited keys cut off only chains that never end.
-/

namespace Accessors

section

variable {t : File.Tree} {layout : CrateLayout} {m found : Module} {target : Ty} {decl : StructDecl}

theorem Module.Finds.unique {name : String} {a b : Item} (findsA : m.Finds name a) (findsB : m.Finds name b) :
    a = b := by
  obtain ⟨symbolA, lookupA, itemA⟩ := findsA
  obtain ⟨symbolB, lookupB, itemB⟩ := findsB
  have same : symbolA = symbolB := Option.some.inj (lookupA.symm.trans lookupB)
  rw [← itemA, ← itemB, same]

/-- One step between aliases: the target has no arguments and leads to a declared alias, whose target stands in
the module of that alias. -/
def AliasStep (t : File.Tree) (layout : CrateLayout) (here next : Module × Ty) : Prop :=
  ∃ name decl, here.1.Leads t layout here.2 next.1 name ∧ here.2.hasArgs = false
    ∧ next.1.Finds name (.typeAlias decl) ∧ next.2 = decl.target

/-- A target leads to a struct in a number of steps, over aliases only. -/
inductive AliasChain (t : File.Tree) (layout : CrateLayout) : Nat → Module → Ty → Module → StructDecl → Prop where
  | struct {m found : Module} {target : Ty} {name : String} {decl : StructDecl} :
      m.Leads t layout target found name → target.hasArgs = false → found.Finds name (.struct decl) →
      AliasChain t layout 1 m target found decl
  | onward {m next found : Module} {target onward : Ty} {decl : StructDecl} {steps : Nat} :
      AliasStep t layout (m, target) (next, onward) → AliasChain t layout steps next onward found decl →
      AliasChain t layout (steps + 1) m target found decl

theorem AliasStep.unique {here a b : Module × Ty} (toA : AliasStep t layout here a)
    (toB : AliasStep t layout here b) : a = b := by
  obtain ⟨nameA, declA, leadsA, _, findsA, targetA⟩ := toA
  obtain ⟨nameB, declB, leadsB, _, findsB, targetB⟩ := toB
  obtain ⟨modules, names⟩ := leadsA.unique leadsB
  rw [modules, names] at findsA
  have decls : declA = declB := Item.typeAlias.inj (findsA.unique findsB)
  refine Prod.ext modules ?_
  rw [targetA, targetB, decls]

/-- A target that leads to a struct at once leads to no alias. -/
theorem AliasStep.not_struct {here next : Module × Ty} {name : String} (step : AliasStep t layout here next)
    (leads : here.1.Leads t layout here.2 found name) (finds : found.Finds name (.struct decl)) : False := by
  obtain ⟨called, aliased, toAlias, _, findsAlias, _⟩ := step
  obtain ⟨modules, names⟩ := leads.unique toAlias
  rw [modules, names] at finds
  exact absurd (finds.unique findsAlias) (by simp)

theorem AliasChain.positive {steps : Nat} (chain : AliasChain t layout steps m target found decl) : 1 ≤ steps := by
  cases chain with
  | struct => exact Nat.le_refl 1
  | onward => omega

/-- A chain from a module that was loaded ends at a struct of one that was loaded. -/
theorem AliasChain.finish {steps : Nat} (chain : AliasChain t layout steps m target found decl)
    (loaded : m.Loaded t layout) : found.Loaded t layout ∧ ∃ own, found.Finds own (.struct decl) := by
  induction chain with
  | struct leads _ finds => exact ⟨leads.loaded loaded, _, finds⟩
  | onward step _ ih =>
      obtain ⟨_, _, leads, _, _, _⟩ := step
      exact ih (leads.loaded loaded)

/-- The chain of a target has one length. -/
theorem AliasChain.length_unique {a b : Nat} {foundB : Module} {declB : StructDecl}
    (chainA : AliasChain t layout a m target found decl) (chainB : AliasChain t layout b m target foundB declB) :
    a = b := by
  induction chainA generalizing b with
  | struct leads _ finds =>
      cases chainB with
      | struct => rfl
      | onward step _ => exact absurd (step.not_struct leads finds) id
  | onward step _ ih =>
      cases chainB with
      | struct leads _ finds => exact absurd (step.not_struct leads finds) id
      | onward stepB rest =>
          have same := Prod.mk.inj (step.unique stepB)
          rw [← same.1, ← same.2] at rest
          rw [ih rest]

end

namespace AliasWalk

variable {t : File.Tree} {layout : CrateLayout} {requested : String} {w : AliasWalk} {found : Module}
  {decl : StructDecl}

/-- What a round comes to whose target leads to a declaration that was not visited: a struct ends the walk, an
alias is the next step. -/
theorem follow_of_arrived {m : Module} (arrived : w.round t layout requested = .ok (.arrived m decl)) :
    w.follow t layout requested = .ok (m, decl) := by
  rw [follow]
  split
  · next failed => exact absurd (arrived.symm.trans failed) (by simp)
  · next other => rw [arrived] at other; cases other; rfl
  · next other => exact absurd (arrived.symm.trans other) (by simp)

theorem follow_of_onward {next : AliasWalk} (onward : w.round t layout requested = .ok (.onward next)) :
    w.follow t layout requested = next.follow t layout requested := by
  rw [follow]
  split
  · next failed => exact absurd (onward.symm.trans failed) (by simp)
  · next other => exact absurd (onward.symm.trans other) (by simp)
  · next other => rw [onward] at other; cases other; rfl

theorem follow_of_error {fault : ResolutionError} (failed : w.round t layout requested = .error fault) :
    w.follow t layout requested = .error fault := by
  rw [follow]
  split
  · next other => rw [failed] at other; cases other; rfl
  · next other => exact absurd (failed.symm.trans other) (by simp)
  · next other => exact absurd (failed.symm.trans other) (by simp)

/-- A walk that finds a struct has gone through the chain of its target. -/
theorem chain_of_follow (result : w.follow t layout requested = .ok (found, decl)) :
    ∃ steps, w.visited.length + steps ≤ longestChain + 1
      ∧ AliasChain t layout steps w.module w.target found decl := by
  fun_induction follow t layout requested w with
  | case1 w fault _ => exact absurd result (by simp)
  | case2 w m reached arrived =>
      obtain ⟨room, place, name, leads, _, met⟩ := round_ok.mp arrived
      obtain ⟨finds, plain, same⟩ := meet_arrived.mp met
      obtain ⟨rfl, rfl⟩ := Prod.mk.inj (Except.ok.inj result)
      rw [← same] at leads finds
      exact ⟨1, by omega, .struct leads plain finds⟩
  | case3 w next onward ih =>
      obtain ⟨steps, bound, chain⟩ := ih result
      obtain ⟨room, grown⟩ := visited_of_onward onward
      obtain ⟨_, place, name, leads, _, met⟩ := round_ok.mp onward
      obtain ⟨aliased, finds, plain, shape⟩ := meet_onward.mp met
      rw [shape] at chain
      refine ⟨steps + 1, by omega, .onward ⟨name, aliased, leads, plain, finds, rfl⟩ chain⟩

/-- What was visited stands behind the walk: each key is of an alias whose chain is at least as long as what is
still to be gone. -/
def Behind (t : File.Tree) (layout : CrateLayout) (w : AliasWalk) (steps : Nat) (found : Module)
    (decl : StructDecl) : Prop :=
  ∀ key ∈ w.visited, ∃ m name aliased length, key = visitKey m name ∧ m.Loaded t layout
    ∧ m.Finds name (.typeAlias aliased) ∧ steps ≤ length
    ∧ AliasChain t layout length m aliased.target found decl

/-- Where a chain goes on was not visited, because the chain from there is shorter than from what was. -/
theorem fresh_of_behind {steps : Nat} {m : Module} {name : String} {item : Item}
    (behind : w.Behind t layout steps found decl) (loaded : m.Loaded t layout) (finds : m.Finds name item)
    (shorter : ∀ aliased length, item = .typeAlias aliased →
      AliasChain t layout length m aliased.target found decl → length < steps) :
    visitKey m name ∉ w.visited := by
  intro seen
  obtain ⟨other, called, aliased, length, key, loadedOther, findsOther, long, chain⟩ := behind _ seen
  obtain ⟨modules, names⟩ := Module.visit_key_inj loaded loadedOther finds findsOther key
  rw [← modules] at chain findsOther
  rw [← names] at findsOther
  have short := shorter aliased length (finds.unique findsOther) chain
  omega

/-- A walk for whose chain there is room finds the struct at its end. -/
theorem follow_of_chain {steps : Nat} {m : Module} {target : Ty} {visited : List String}
    (chain : AliasChain t layout steps m target found decl) (loaded : m.Loaded t layout)
    (room : visited.length + steps ≤ longestChain + 1)
    (behind : Behind t layout ⟨m, target, visited⟩ steps found decl) :
    (⟨m, target, visited⟩ : AliasWalk).follow t layout requested = .ok (found, decl) := by
  induction chain generalizing visited with
  | struct leads plain finds =>
      have fresh := fresh_of_behind behind (leads.loaded loaded) finds
        (fun aliased length isAlias _ => absurd isAlias (by simp))
      apply follow_of_arrived
      exact round_ok.mpr ⟨by simp only; omega, _, _, leads, fresh, meet_arrived.mpr ⟨finds, plain, rfl⟩⟩
  | @onward m next found target onward decl steps step rest ih =>
      obtain ⟨name, aliased, leads, plain, finds, shape⟩ := step
      simp only at leads plain finds shape
      have loadedNext := leads.loaded loaded
      have fresh := fresh_of_behind behind loadedNext finds (fun other length same chain => by
        rw [← Item.typeAlias.inj same, ← shape] at chain
        have lengths := chain.length_unique rest
        omega)
      have round : (⟨m, target, visited⟩ : AliasWalk).round t layout requested
          = .ok (.onward ⟨next, aliased.target, visitKey next name :: visited⟩) :=
        round_ok.mpr ⟨by simp only; omega, next, name, leads, fresh,
          meet_onward.mpr ⟨aliased, finds, plain, rfl⟩⟩
      rw [follow_of_onward round, ← shape]
      refine ih loadedNext (by simp only [List.length_cons]; omega) ?_
      intro key member
      rcases List.mem_cons.mp member with same | earlier
      · rw [shape] at rest
        exact ⟨next, name, aliased, steps, same, loadedNext, finds, Nat.le_refl steps, rest⟩
      · obtain ⟨other, called, declared, length, known, loadedOther, findsOther, long, chain⟩ := behind key earlier
        exact ⟨other, called, declared, length, known, loadedOther, findsOther, by omega, chain⟩

/-- A round whose target leads to an alias goes on there, or reports a cycle. -/
theorem round_of_step {place : Module × Ty} (step : AliasStep t layout (w.module, w.target) place) :
    w.round t layout requested = .error (.aliasCycle requested)
      ∨ ∃ next, w.round t layout requested = .ok (.onward next) ∧ (next.module, next.target) = place := by
  obtain ⟨name, aliased, leads, plain, finds, shape⟩ := step
  simp only at leads plain
  by_cases full : w.visited.length > longestChain
  · left
    rw [round, if_pos full]
  · by_cases seen : visitKey place.1 name ∈ w.visited
    · left
      rw [round, if_neg full, follow_target_ok.mpr leads]
      simp only
      rw [if_pos seen]
    · right
      refine ⟨_, round_ok.mpr ⟨by omega, place.1, name, leads, seen,
        meet_onward.mpr ⟨aliased, finds, plain, rfl⟩⟩, ?_⟩
      rw [← shape]

/-- A walk that can always go on is reported as a cycle: it comes back to what it visited or grows too long. -/
theorem follow_closed {w : AliasWalk} (stays : Module × Ty → Prop)
    (closed : ∀ place, stays place → ∃ next, AliasStep t layout place next ∧ stays next)
    (here : stays (w.module, w.target)) : w.follow t layout requested = .error (.aliasCycle requested) := by
  obtain ⟨place, step, there⟩ := closed _ here
  rcases round_of_step step with cycle | ⟨next, onward, same⟩
  · exact follow_of_error cycle
  · have grown := visited_of_onward onward
    rw [follow_of_onward onward]
    rw [← same] at there
    exact follow_closed stays closed there
termination_by longestChain + 1 - w.visited.length
decreasing_by omega

/-- A walk on a chain that never ends can always go on. -/
theorem follow_endless {w : AliasWalk} {places : Nat → Module × Ty}
    (steps : ∀ i, AliasStep t layout (places i) (places (i + 1))) (i : Nat)
    (here : (w.module, w.target) = places i) :
    w.follow t layout requested = .error (.aliasCycle requested) := by
  apply follow_closed (fun place => ∃ i, place = places i) ?_ ⟨i, here⟩
  rintro _ ⟨i, rfl⟩
  exact ⟨places (i + 1), steps i, i + 1, rfl⟩

/-- The outcome of a walk, if it comes within a number of rounds. -/
def within (t : File.Tree) (layout : CrateLayout) (requested : String) :
    Nat → AliasWalk → Option (Except ResolutionError (Module × StructDecl))
  | 0, _ => none
  | rounds + 1, w =>
      match w.round t layout requested with
      | .error fault => some (.error fault)
      | .ok (.arrived m decl) => some (.ok (m, decl))
      | .ok (.onward next) => next.within t layout requested rounds

/-- Every round either ends the walk or takes up one of the places that a chain may have. -/
theorem within_of_room {rounds : Nat} (enough : longestChain + 2 ≤ w.visited.length + rounds)
    (some : 1 ≤ rounds) : w.within t layout requested rounds = .some (w.follow t layout requested) := by
  induction rounds generalizing w with
  | zero => omega
  | succ rounds ih =>
      rw [within]
      cases result : w.round t layout requested with
      | error fault => rw [follow_of_error result]
      | ok out =>
          cases out with
          | arrived m decl => rw [follow_of_arrived result]
          | onward next =>
              obtain ⟨room, grown⟩ := visited_of_onward result
              simp only
              rw [follow_of_onward result]
              exact ih (by omega) (by omega)

end AliasWalk

/-- Where an alias is declared, the struct it names is what its walk comes to, if that stands in the module of
the alias. -/
theorem resolve_alias {t : File.Tree} {layout : CrateLayout} {m : Module} {name : String} {decl : AliasDecl}
    (finds : m.Finds name (.typeAlias decl)) :
    resolveStruct t layout m name = (do
      let (found, struct) ← (AliasWalk.start m name decl.target).follow t layout name
      if found.path ≠ m.path then
        .error (.unsupportedAlias name (.elsewhere found.path struct.name.text))
      else .ok (.ofDecl name found struct)) := by
  obtain ⟨symbol, lookup, item⟩ := finds
  obtain ⟨ident, declared, _⟩ := Symbol.mem_of_items (Symbol.find_some lookup).1
  rw [item] at declared
  have kind : symbol.kind = .typeAlias := (Prod.mk.inj (Option.some.inj declared)).2.symm
  unfold resolveStruct
  rw [lookup]
  simp only [kind, item, SymbolKind.isType, Bool.not_true, Bool.false_eq_true, if_false]

/-- Where a struct is declared, it is what its name is resolved to. -/
theorem resolve_struct {t : File.Tree} {layout : CrateLayout} {m : Module} {name : String} {decl : StructDecl}
    (finds : m.Finds name (.struct decl)) : resolveStruct t layout m name = .ok (.ofDecl name m decl) := by
  obtain ⟨symbol, lookup, item⟩ := finds
  obtain ⟨ident, declared, _⟩ := Symbol.mem_of_items (Symbol.find_some lookup).1
  rw [item] at declared
  have kind : symbol.kind = .struct := (Prod.mk.inj (Option.some.inj declared)).2.symm
  unfold resolveStruct
  rw [lookup]
  simp only [kind, item, SymbolKind.isType, Bool.not_true, Bool.false_eq_true, if_false]

/-- A struct that a name is resolved to is declared in the module of the name. -/
theorem declared_of_resolved {t : File.Tree} {layout : CrateLayout} {m : Module} {name : String}
    {s : ResolvedStruct} (loaded : m.Loaded t layout) (resolved : resolveStruct t layout m name = .ok s) :
    ∃ own decl, m.Finds own (.struct decl) ∧ s = .ofDecl name m decl := by
  unfold resolveStruct at resolved
  split at resolved
  · exact absurd resolved (by simp)
  · next symbol lookup =>
      split at resolved
      · exact absurd resolved (by simp)
      · split at resolved
        · next decl item => exact ⟨name, decl, ⟨symbol, lookup, item⟩, (Except.ok.inj resolved).symm⟩
        · obtain ⟨⟨found, struct⟩, followed, placed⟩ := Outcome.bind_ok.mp resolved
          simp only at placed
          split at placed
          · exact absurd placed (by simp)
          · next same =>
              obtain ⟨steps, _, chain⟩ := AliasWalk.chain_of_follow followed
              obtain ⟨reached, own, finds⟩ := chain.finish loaded
              have here : found = m := reached.unique_of_path loaded (Decidable.not_not.mp same)
              rw [here] at finds placed
              exact ⟨own, struct, finds, (Except.ok.inj placed).symm⟩
        · exact absurd resolved (by simp)

/-- Resolving an alias gives a struct exactly when a chain of at most sixteen steps leads from its target to a
struct of a module with the same path, and then the struct under the name that was asked for. A chain that never
ends is reported as a cycle. No walk takes more than seventeen rounds. -/
theorem alias_resolution_exact {t : File.Tree} {layout : CrateLayout} {m : Module} {name : String}
    {decl : AliasDecl} (loaded : m.Loaded t layout) (finds : m.Finds name (.typeAlias decl)) :
    (∀ s : ResolvedStruct, resolveStruct t layout m name = .ok s ↔
        ∃ steps found struct, 1 ≤ steps ∧ steps ≤ 16
          ∧ AliasChain t layout steps m decl.target found struct ∧ found.path = m.path
          ∧ s = ⟨name, found.path, struct.fields, found.imports,
              Signature.generics found.imports struct.generics⟩)
      ∧ ((∃ places : Nat → Module × Ty, places 0 = (m, decl.target)
            ∧ ∀ i, AliasStep t layout (places i) (places (i + 1))) →
          resolveStruct t layout m name = .error (.aliasCycle name))
      ∧ ∀ (anywhere : Module) (requested written : String) (target : Ty),
          (AliasWalk.start anywhere written target).within t layout requested 17
            = some ((AliasWalk.start anywhere written target).follow t layout requested) := by
  rw [resolve_alias finds]
  refine ⟨?_, ?_, ?_⟩
  · intro s
    constructor
    · intro result
      obtain ⟨⟨found, struct⟩, followed, placed⟩ := Outcome.bind_ok.mp result
      simp only at placed
      split at placed
      · exact absurd placed (by simp)
      · next same =>
          obtain ⟨steps, room, chain⟩ := AliasWalk.chain_of_follow followed
          have bound : steps ≤ 16 := by
            simp only [AliasWalk.start, List.length_singleton, longestChain] at room
            omega
          exact ⟨steps, found, struct, chain.positive, bound, chain, Decidable.not_not.mp same,
            (Except.ok.inj placed).symm⟩
    · rintro ⟨steps, found, struct, positive, bound, chain, same, shape⟩
      have behind : (AliasWalk.start m name decl.target).Behind t layout steps found struct := by
        intro key member
        have first : key = visitKey m name := List.mem_singleton.mp member
        exact ⟨m, name, decl, steps, first, loaded, finds, Nat.le_refl steps, chain⟩
      have room : [visitKey m name].length + steps ≤ longestChain + 1 := by
        simp only [List.length_singleton, longestChain]
        omega
      have followed : (AliasWalk.start m name decl.target).follow t layout name = .ok (found, struct) :=
        AliasWalk.follow_of_chain chain loaded room behind
      have stays : ¬ found.path ≠ m.path := Decidable.not_not.mpr same
      refine Outcome.bind_ok.mpr ⟨(found, struct), followed, ?_⟩
      simp only
      rw [if_neg stays, shape, ResolvedStruct.ofDecl]
  · rintro ⟨places, first, steps⟩
    have cycle : (AliasWalk.start m name decl.target).follow t layout name = .error (.aliasCycle name) :=
      AliasWalk.follow_endless steps 0 first.symm
    rw [cycle]
    rfl
  · intro anywhere requested written target
    apply AliasWalk.within_of_room
    · simp [AliasWalk.start, longestChain]
    · omega

namespace AliasSample

/-- A crate of one file, with an alias of its only struct. -/
def tree : File.Tree := ⟨[(["lib.rs".toList], .file (.text "type A = S; struct S(u8);"))], []⟩

def layout : CrateLayout := ⟨⟨"/"⟩, "sample", ⟨"/lib.rs"⟩⟩

/-- The alias and the struct of a module, if the target of the one is the other, which has one field. -/
def declared (m : Module) : Option (AliasDecl × StructDecl) :=
  match Symbol.find? m.symbols "A", Symbol.find? m.symbols "S" with
  | some ⟨_, _, .typeAlias decl⟩, some ⟨_, _, .struct named⟩ =>
      if AliasTarget.classify m decl.target = .here "S" ∧ decl.target.hasArgs = false
          ∧ named.fields.describe m.imports = [⟨"0", "u8"⟩] then some (decl, named)
      else none
  | _, _ => none

end AliasSample

theorem alias_of_sample_resolves :
    ∃ m decl, m.Loaded AliasSample.tree AliasSample.layout ∧ m.Finds "A" (.typeAlias decl)
      ∧ ∃ s, resolveStruct AliasSample.tree AliasSample.layout m "A" = .ok s ∧ s.name = "A"
          ∧ s.describeFields = [⟨"0", "u8"⟩] := by
  have evaluated : ((Module.loadSegments AliasSample.tree AliasSample.layout ["crate"]).toOption.bind
      AliasSample.declared).isSome = true := by
    decide +kernel
  obtain ⟨⟨decl, named⟩, answer⟩ := Option.isSome_iff_exists.mp evaluated
  obtain ⟨m, loading, answer⟩ := Option.bind_eq_some_iff.mp answer
  have loaded : m.Loaded AliasSample.tree AliasSample.layout := ⟨[], Outcome.to_option_some.mp loading⟩
  unfold AliasSample.declared at answer
  split at answer
  · next spelling kind aliased called sort shape aliasFound structFound =>
      split at answer
      · next tells =>
          have finds : m.Finds "A" (.typeAlias aliased) := ⟨_, aliasFound, rfl⟩
          have leads : m.Leads AliasSample.tree AliasSample.layout aliased.target m "S" := by
            unfold Module.Leads
            rw [tells.1]
            exact ⟨rfl, rfl⟩
          have chain := AliasChain.struct leads tells.2.1 ⟨_, structFound, rfl⟩
          have resolved := (alias_resolution_exact loaded finds).1
          exact ⟨m, aliased, loaded, finds, _,
            (resolved _).mpr ⟨1, m, shape, by omega, by omega, chain, rfl, rfl⟩, rfl, tells.2.2⟩
      · exact absurd answer (by simp)
  · exact absurd answer (by simp)

end Accessors
