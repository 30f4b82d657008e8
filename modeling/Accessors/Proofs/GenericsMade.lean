import Accessors.Parsing.Items
import Accessors.Proofs.TypesMade

/-!
The generics that the grammar yields for a struct.
-/

namespace Accessors

open Parsing

/-- Whether a type begins with a binder. -/
def Ty.leadsBinder : Ty → Bool
  | .function (some _) _ _ _ _ _ => true
  | .object false (.trait false false (some _) _ _ :: _) => true
  | _ => false

/-- A parameter that the grammar yields. -/
inductive GenericParam.Made : GenericParam → Prop where
  | lifetime {l bounds} : GenericParam.Made (.lifetime l bounds)
  | type {name bounds} : name.Free ∨ name.text = "_" → (∀ b ∈ bounds, Bound.Made b) →
      GenericParam.Made (.type name bounds)
  | const {name t} : name.Free → Ty.Made true t → GenericParam.Made (.const name t)

/-- A predicate that the grammar yields. A binder in front of a type is one of the predicate. -/
inductive WherePredicate.Made : WherePredicate → Prop where
  | lifetime {l bounds} : WherePredicate.Made (.lifetime l bounds)
  | type {binder subject bounds} : Ty.Made true subject → (binder = none → subject.leadsBinder = false) →
      (∀ b ∈ bounds, Bound.Made b) → WherePredicate.Made (.type binder subject bounds)

structure Generics.Made (g : Generics) : Prop where
  params : ∀ p ∈ g.params, p.Made
  predicates : ∀ p ∈ g.predicates, p.Made

namespace Parsing

variable {r : Rules} {c : Cursor}

/-! Types without a binder in front. -/

theorem unled_of_parenBound {inner : Ty} {first : Bound} (bound : parenBound? inner = some first) (more : List Bound) :
    (Ty.object false (first :: more)).leadsBinder = false := by
  unfold parenBound? at bound
  split at bound
  · cases bound
    rfl
  · cases bound
    rfl
  · rename_i other
    cases bound
    cases first with
    | trait inParens relaxed binder rooted segments => exact absurd rfl (other inParens relaxed binder rooted segments)
    | _ => rfl
  · cases bound

theorem yields_unledParen (sound : Sound r) {sums : Bool} :
    Yields (parenType sums) r c fun t _ => t.leadsBinder = false := by
  refine Yields.bind (Yields.within fun _ => yields_parenthesized sound) fun found c' made => ?_
  cases found with
  | tuple elements => exact Yields.pure rfl
  | firstBound first =>
      obtain ⟨-, binder, rooted, segments, rfl⟩ := made
      exact Yields.step fun more _ => Yields.pure rfl
  | single inner =>
      dsimp only
      split
      · rename_i first bound
        refine Yields.ifAhead (fun _ => Yields.step fun more _ => Yields.pure ?_) fun _ => Yields.pure rfl
        exact unled_of_parenBound bound more
      · exact Yields.pure rfl

theorem yields_unledPath (sound : Sound r) {sums : Bool} :
    Yields (pathType sums none) r c fun t _ => t.leadsBinder = false := by
  refine Yields.bind (Yields.captured (V := fun found => ∃ ts, PathLike ts found.1) fun c' _ => ?_) fun found c' path => ?_
  · refine Yields.bind (yields_typePath sound) fun t c'' path => ?_
    exact Yields.ifAhead (fun _ => Yields.step fun _ _ => Yields.step fun _ _ => Yields.pure ⟨_, path⟩) fun _ =>
      Yields.pure ⟨_, path⟩
  · obtain ⟨⟨t, isMacro⟩, lexemes⟩ := found
    cases isMacro with
    | true => exact Yields.pure rfl
    | false =>
        obtain ⟨ts, path⟩ := path
        cases path with
        | projection made => exact Yields.pure rfl
        | path each heads unrooted =>
            refine Yields.step fun more c'' => ?_
            cases more with
            | true => exact Yields.step fun bounds _ => Yields.pure rfl
            | false => exact Yields.pure rfl

theorem yields_unled (sound : Sound r) {sums : Bool} (unbound : Ahead.word "for" c.rest = false) :
    Yields (typeOf sums) r c fun t _ => t.leadsBinder = false := by
  refine Yields.bind yields_binder fun binder c₁ found => ?_
  obtain rfl : binder = none := by
    rw [unbound] at found
    simpa using found.1
  obtain rfl := found.2 rfl
  refine Yields.step fun can c₂ => Yields.ite (fun no => by cases no) fun _ => ?_
  refine Yields.ifAhead (fun _ => yields_unledParen sound) fun _ => ?_
  refine Yields.ifAhead (fun _ => ?_) fun _ => ?_
  · refine Yields.step fun _ _ => Yields.step fun _ _ => Yields.step fun _ _ => Yields.step fun found _ => ?_
    exact Yields.step fun output _ => Yields.pure rfl
  refine Yields.ifAhead (fun _ => yields_unledPath sound) fun _ => ?_
  refine Yields.ifAhead (fun _ => Yields.get (Yields.step fun found _ => ?_)) fun _ => ?_
  · obtain ⟨⟨bounds, starred⟩, lexemes⟩ := found
    cases starred <;> exact Yields.pure rfl
  refine Yields.ifAhead (fun _ => ?_) fun _ => ?_
  · have inside : ∀ c₃, Yields bracketType r c₃ fun t _ => t.leadsBinder = false := by
      refine fun c₃ => Yields.step fun t _ => Yields.step fun sized _ => ?_
      cases sized with
      | true => exact Yields.step fun _ _ => Yields.pure rfl
      | false => exact Yields.pure rfl
    exact Yields.within inside
  refine Yields.step fun star _ => ?_
  cases star with
  | true =>
      refine Yields.step fun isConst _ => ?_
      cases isConst with
      | true => exact Yields.step fun _ _ => Yields.pure rfl
      | false =>
          refine Yields.step fun isMut _ => ?_
          cases isMut with
          | true => exact Yields.step fun _ _ => Yields.pure rfl
          | false => exact Yields.fail
  | false =>
  refine Yields.step fun ampersand _ => ?_
  cases ampersand with
  | true => exact Yields.step fun _ _ => Yields.step fun _ _ => Yields.step fun _ _ => Yields.pure rfl
  | false =>
  refine Yields.step fun exclaimed _ => ?_
  cases exclaimed with
  | true => exact Yields.pure rfl
  | false =>
  refine Yields.ifAhead (fun _ => Yields.get (Yields.step fun _ _ => Yields.step fun bounds _ => ?_)) fun _ => ?_
  · split
    · exact Yields.refuse
    · exact Yields.pure rfl
  refine Yields.step fun wild _ => ?_
  cases wild with
  | true => exact Yields.pure rfl
  | false =>
  refine Yields.ifAhead (fun front => Yields.get ?_) fun _ => Yields.fail
  refine Yields.bind (yields_objectBounds sound) fun bounds _ made => Yields.pure ?_
  obtain ⟨l, more, rfl⟩ := made.1.2.2 front
  rfl

/-- A type without the word `for` in front of it does not begin with a binder. -/
theorem unled_rules (n : Nat) {sums : Bool} (unbound : Ahead.word "for" c.rest = false) :
    Yields (nested (.ty sums)) (rules n) c fun t _ => t.leadsBinder = false := by
  cases n with
  | zero =>
      intro t c' ran
      cases ran
  | succ n => exact fun t c' ran => yields_unled (sound_rules n) unbound t c' ran

/-! Generics. -/

theorem yields_bounds (sound : Sound r) {stop : List TokenTree → Bool} :
    Yields (chainUntil ['+'] stop (nested (.bound false true))) r c fun bounds _ => ∀ b ∈ bounds, Bound.Made b :=
  Yields.chainUntil fun _ => sound.bound.mono fun _ _ made => made.1

theorem yields_genericParam (sound : Sound r) : Yields genericParam r c fun p _ => p.Made := by
  refine Yields.step fun _ c₁ => Yields.ifAhead (fun _ => ?_) fun _ => Yields.ifAhead (fun _ => ?_) fun _ => ?_
  · refine Yields.bind Yields.ident fun name c₂ named => ?_
    have tail : ∀ bounds c', (∀ b ∈ bounds, Bound.Made b) → Yields (do
          if ← takeOp? ['='] then
            let _ ← nested (.ty true)
          return GenericParam.type name bounds) r c' fun p _ => p.Made := by
      intro bounds c' each
      refine Yields.step fun equals _ => ?_
      cases equals with
      | true => exact Yields.step fun _ _ => Yields.pure (.type (Or.inl named.1) each)
      | false => exact Yields.pure (.type (Or.inl named.1) each)
    refine Yields.step fun colon c₃ => ?_
    cases colon with
    | true => exact Yields.bind (yields_bounds sound) fun bounds c₄ each => tail bounds c₄ each
    | false =>
        refine Yields.bind (P := fun bounds _ => bounds = []) (Yields.pure rfl) ?_
        rintro _ c₄ rfl
        exact tail [] c₄ (by simp)
  · refine Yields.step fun l _ => Yields.step fun colon _ => ?_
    cases colon <;> exact Yields.step fun _ _ => Yields.pure .lifetime
  · refine Yields.step fun isConst c₂ => ?_
    cases isConst with
    | false => exact Yields.fail
    | true =>
        refine Yields.bind Yields.ident fun name c₃ named => Yields.step fun _ c₄ => ?_
        refine Yields.bind (yields_type sound) fun t c₅ made => Yields.step fun equals c₆ => ?_
        cases equals with
        | true => exact Yields.step fun _ _ => Yields.pure (.const named.1 made)
        | false => exact Yields.pure (.const named.1 made)

theorem yields_genericParams (sound : Sound r) : Yields genericParams r c fun params _ => ∀ p ∈ params, p.Made := by
  refine Yields.step fun opened c₁ => ?_
  cases opened with
  | false => exact Yields.pure (by simp)
  | true =>
      refine Yields.bind (Yields.listUntil fun c₂ => ?_) fun params c₃ each => Yields.step fun _ _ => Yields.pure each
      refine Yields.step fun _ c₃ => Yields.ifAhead (fun wild => ?_) fun _ => yields_genericParam sound
      refine Yields.bind Yields.anyIdent fun name c₄ named => Yields.pure (.type (Or.inr ?_) (by simp))
      obtain ⟨rest, same⟩ := named
      rw [same] at wild
      simpa [Ahead.word] using wild

theorem yields_wherePredicate (n : Nat) : Yields wherePredicate (rules n) c fun p _ => p.Made := by
  refine Yields.ifAhead (fun _ => ?_) fun _ => ?_
  · exact Yields.step fun l _ => Yields.step fun _ _ => Yields.step fun bounds _ => Yields.pure .lifetime
  · refine Yields.bind yields_binder fun binder c₁ found => ?_
    have subject : Yields (nested (.ty true)) (rules n) c₁ fun t _ =>
        t.Made true ∧ (binder = none → t.leadsBinder = false) := by
      intro t c₂ ran
      refine ⟨yields_type (sound_rules n) t c₂ ran, ?_⟩
      rintro rfl
      obtain rfl := found.2 rfl
      exact unled_rules n found.1.symm t c₂ ran
    refine Yields.bind subject fun t c₂ made => Yields.step fun _ c₃ => ?_
    exact Yields.bind (yields_bounds (sound_rules n)) fun bounds _ each => Yields.pure (.type made.1 made.2 each)

theorem yields_whereClause (n : Nat) : Yields whereClause (rules n) c fun predicates _ => ∀ p ∈ predicates, p.Made := by
  refine Yields.step fun opened c₁ => ?_
  cases opened with
  | true => exact Yields.chainUntil fun _ => yields_wherePredicate n
  | false => exact Yields.pure (by simp)

theorem yields_structTail (n : Nat) : Yields structTail (rules n) c fun found _ => ∀ p ∈ found.1, p.Made := by
  refine Yields.step fun claused c₁ => Yields.bind (yields_whereClause n) fun predicates c₂ each => ?_
  refine Yields.ifAhead (fun _ => Yields.step fun types c₃ => ?_) fun _ => Yields.ifAhead (fun _ => ?_) fun _ => ?_
  · exact Yields.bind (yields_whereClause n) fun behind _ later => Yields.step fun _ _ => Yields.pure later
  · exact Yields.step fun fields _ => Yields.pure each
  · exact Yields.step fun _ _ => Yields.pure each

/-- The generics of a struct that was read from a text. -/
theorem generics_of_structText {text : String} {decl : StructDecl} (parsed : structText text = .ok decl) :
    decl.generics.Made := by
  refine holds_of_parse (Q := fun decl => decl.generics.Made) (fun n c => ?_) parsed
  refine Yields.step fun _ _ => Yields.step fun _ _ => Yields.step fun _ _ => Yields.step fun name c₁ => ?_
  refine Yields.bind (yields_genericParams (sound_rules n)) fun params c₂ each => ?_
  exact Yields.bind (yields_structTail n) fun found _ later => Yields.pure ⟨each, later⟩

end Parsing

end Accessors
