import Accessors.Parsing.Source
import Accessors.Proofs.Borders

/-!
Types and generics at a border. What the grammar of types reads before a border it reads as well where other braces
stand there, at every level of the rules; so do parameters, `where` clauses and the bounds in them.
-/

namespace Accessors.Parsing

namespace Border

variable {s : Border}

theorem blind_angleArgs (inExpr : Bool) : s.Blind (Ahead.angleArgs inExpr) :=
  (((Blind.const _).and (blind_op ['<'])).and (blind_op ['<', '=']).not).or
    (Blind.past (blind_op [':', ':']) (fronts_op [':', ':']) (blind_op ['<']))

/-- A separator with something other than a parenthesis behind it. -/
theorem blind_separator : s.Blind fun t => Ahead.colons t && !Ahead.opens .paren (t.drop 2) :=
  Blind.past (blind_op [':', ':']) (fronts_op [':', ':']) (blind_opens (by decide)).not

theorem blind_callArgs : s.Blind Ahead.callArgs :=
  (blind_opens (by decide)).or (Blind.past (blind_op [':', ':']) (fronts_op [':', ':']) (blind_opens (by decide)))

theorem blind_bareSegment : s.Blind Ahead.bareSegment :=
  (((blind_word "super").or (blind_word "self")).or (blind_word "crate")).or (blind_word "try")

theorem blind_argEnd : s.Blind Ahead.argEnd :=
  (blind_op [',']).or (blind_op ['>'])

theorem blind_bound : s.Blind Ahead.bound :=
  (((blind_anyIdent.or (blind_op [':', ':'])).or (blind_op ['?'])).or blind_lifetime).or (blind_opens (by decide))

theorem blind_pathWord : s.Blind Ahead.pathWord :=
  (((blind_word "super").or (blind_word "self")).or (blind_word "Self")).or (blind_word "crate")

theorem blind_bindable : s.Blind Ahead.bindable :=
  ((((blind_ident.or (blind_word "fn")).or (blind_word "unsafe")).or (blind_word "extern")).or blind_pathWord).and
    (blind_word "dyn").not

theorem blind_functionType : s.Blind Ahead.functionType :=
  ((blind_word "fn").or (blind_word "unsafe")).or (blind_word "extern")

theorem blind_pathType : s.Blind Ahead.pathType :=
  ((blind_ident.or blind_pathWord).or (blind_op [':', ':'])).or (blind_op ['<'])

theorem blind_plus (sums : Bool) : s.Blind fun t => sums && Ahead.op ['+'] t :=
  (Blind.const sums).and (blind_op ['+'])

theorem blind_macro (named : Bool) : s.Blind fun t => named && Ahead.op ['!'] t && !Ahead.op ['!', '='] t :=
  ((Blind.const named).and (blind_op ['!'])).and (blind_op ['!', '=']).not

end Border

/-- What a path is that stands for a type: the first bound of a sum, or the type by itself. -/
def pathBound (sums : Bool) (binder : Option Binder) (rooted : Bool) (segments : List Segment) : Parser Ty := do
  let more ← ahead fun t => sums && Ahead.op ['+'] t
  if binder.isSome || more then
    let first := Bound.trait false false binder rooted segments
    if more then return .object false (first :: (← addedBounds Ahead.bound))
    return .object false [first]
  else return .path rooted segments

/-- What the rules at hand read before the border, they read where other braces stand there. -/
structure Carrying (s : Border) (r : Rules) : Prop where
  ty : ∀ {sums c}, Kept s (nested (.ty sums)) r c
  bound : ∀ {captures consts c}, Kept s (nested (.bound captures consts)) r c
  args : ∀ {c}, Kept s (nested .angleArgs) r c
  /-- No type stands at the border itself. -/
  noType : ∀ {sums c}, c.rest = s.near → Yields (nested (.ty sums)) r c fun _ _ => False

variable {s : Border} {r : Rules} {c : Cursor}

namespace Carrying

/-! Paths. -/

theorem returnType (carrying : Carrying s r) (sums : Bool) : Kept s (returnType sums) r c := by
  refine Carries.bind (Carries.someOp _) fun arrow c' => ?_
  cases arrow with
  | true => exact Carries.bind carrying.ty fun _ _ => Carries.pure _
  | false => exact Carries.pure none

theorem segment (carrying : Carrying s r) (inExpr : Bool) : Kept s (segment inExpr) r c := by
  refine Carries.ifAhead s.blind_bareSegment (fun _ => Carries.bind Carries.anyIdent fun _ _ => Carries.pure _) fun _ => ?_
  have tail : ∀ (name : Ident) c', Kept s (do
        if ← ahead (Ahead.angleArgs inExpr) then
          let turbofish ← takeOp? [':', ':']
          return Segment.angle name turbofish (← nested .angleArgs)
        else return .plain name) r c' := by
    intro name c'
    refine Carries.ifAhead (s.blind_angleArgs inExpr) (fun _ => ?_) fun _ => Carries.pure _
    exact Carries.bind (Carries.someOp _) fun _ _ => Carries.bind carrying.args fun _ _ => Carries.pure _
  exact Carries.ifAhead (s.blind_word "Self") (fun _ => Carries.bind Carries.anyIdent tail)
    fun _ => Carries.bind Carries.ident tail

theorem segments (carrying : Carrying s r) (inExpr : Bool) : Kept s (segments inExpr) r c := by
  refine Carries.rounds rfl fun few many ih c' => Carries.bind (carrying.segment inExpr) fun first c'' => ?_
  refine Carries.ifAhead s.blind_separator (fun _ => ?_) fun _ => Carries.pure _
  exact Carries.bind (Carries.op _) fun _ c₃ => Carries.bind (ih c₃) fun _ _ => Carries.pure _

theorem projectionRounds (carrying : Carrying s r) (inExpr : Bool) {few many : Nat} (le : few ≤ many) :
    Carries s (projectionRounds inExpr few) (projectionRounds inExpr many) r c := by
  refine Carries.loop rfl (fun few many ih c' => ?_) le
  refine Carries.bind (carrying.segment inExpr) fun first c'' => Carries.bind (Carries.someOp _) fun more c₃ => ?_
  cases more with
  | true => exact Carries.bind (ih c₃) fun _ _ => Carries.pure _
  | false => exact Carries.pure [first]

theorem callArgs (carrying : Carrying s r) (path : List Segment) : Kept s (callArgs path) r c := by
  unfold Parsing.callArgs
  split
  · rename_i name last
    refine Carries.ifAhead s.blind_callArgs (fun _ => ?_) fun _ => Carries.pure path
    have tail : ∀ c', Kept s (do
          let inputs ← within .paren (commaList (nested (.ty true)))
          let output ← Parsing.returnType false
          return path.dropLast ++ [Segment.call name inputs output]) r c' :=
      fun c' => Carries.bind (Carries.within _ _) fun _ _ => Carries.bind (carrying.returnType false) fun _ _ => Carries.pure _
    refine Carries.ifAhead (s.blind_op [':', ':']) (fun seen => ?_) fun _ => tail c
    exact Carries.bind (Carries.consume (length_of_op seen)) fun _ c' => tail c'
  · exact Carries.pure path

theorem typePath (carrying : Carrying s r) (inExpr : Bool) : Kept s (typePath inExpr) r c := by
  refine Carries.bind (Carries.someOp _) fun angle c' => ?_
  cases angle with
  | true =>
      refine Carries.bind carrying.ty fun subject c'' => ?_
      have tail : ∀ (trait : Bool × List Segment) c₀, Kept s (do
            takeOp ['>']
            takeOp [':', ':']
            let rest ← Parsing.projectionRounds inExpr ((← get).rest.length + 1)
            return Ty.projection subject trait.1 trait.2 rest) r c₀ := by
        intro trait c₀
        refine Carries.bind (Carries.op _) fun _ _ => Carries.bind (Carries.op _) fun _ c₂ => Carries.get fun _ => ?_
        refine Carries.bind ?_ fun _ _ => Carries.pure _
        exact carrying.projectionRounds inExpr (Nat.succ_le_succ (Border.length_le_move c₂))
      refine Carries.bind (Carries.someWord "as") fun named c₀ => ?_
      cases named with
      | true =>
          refine Carries.bind (Carries.someOp _) fun rooted c₁ => Carries.bind (carrying.segments false) fun path c₂ => ?_
          exact Carries.bind (Carries.pure (rooted, path)) tail
      | false => exact Carries.bind (Carries.pure (false, [])) tail
  | false =>
      exact Carries.bind (Carries.someOp _) fun rooted c'' => Carries.bind (carrying.segments inExpr) fun _ _ => Carries.pure _

/-! Bounds. -/

theorem attributes : Kept s outerAttributes r c := by
  refine Carries.iterate (fun file c' => Carries.ifAhead (s.blind_op ['#']) (fun _ => ?_) fun _ => Carries.pure none) none
  exact Carries.bind (Carries.bind (Carries.op _) fun _ _ => Carries.within _ _) fun _ _ => Carries.pure _

/-- A constant argument is never read where nothing stands before the border. -/
theorem stuck_constArg (bare : c.rest = s.near) : Yields constArg r c fun _ c' => ¬ s.Before c' := by
  have none : Ahead.literal c.rest = false ∧ Ahead.ident c.rest = false := by
    rw [bare]
    exact ⟨s.false_at_near rfl fun _ => rfl, s.false_at_near rfl fun _ => rfl⟩
  refine Yields.ifAhead (fun seen => by simp [none.1] at seen) fun _ => ?_
  refine Yields.ifAhead (fun seen => by simp [none.2] at seen) fun _ => ?_
  exact Yields.ifAhead (fun _ => Carries.stuck_within _ _ bare) fun _ => Yields.fail

theorem constArg : Kept s constArg r c := by
  refine Carries.ifAhead s.blind_literal (fun _ => Carries.literal) fun literal => ?_
  refine Carries.ifAhead s.blind_ident (fun _ => Carries.bind Carries.ident fun _ _ => Carries.pure ()) fun _ => ?_
  refine Carries.ifSolid (fun t _ => by cases t <;> rfl) (fun _ => Carries.within _ _) (fun _ => Carries.fail) fun bare => ?_
  exact Yields.ifAhead (fun _ => Carries.stuck_within _ _ bare) fun _ => Yields.fail

theorem genericParam (carrying : Carrying s r) : Kept s genericParam r c := by
  refine Carries.bind attributes fun _ c₁ => Carries.ifAhead s.blind_ident (fun _ => ?_) fun _ => ?_
  · refine Carries.bind Carries.ident fun name c₂ => ?_
    have tail : ∀ (bounds : List Bound) c', Kept s (do
          if ← takeOp? ['='] then
            let _ ← nested (.ty true)
          return GenericParam.type name bounds) r c' := by
      intro bounds c'
      refine Carries.bind (Carries.someOp _) fun valued c'' => ?_
      cases valued with
      | true => exact Carries.bind carrying.ty fun _ _ => Carries.pure _
      | false => exact Carries.pure _
    refine Carries.bind (Carries.someOp _) fun bounded c₃ => ?_
    cases bounded with
    | true =>
        exact Carries.bind (Carries.chainUntil (s.blind_argEnd.or (s.blind_op ['='])) fun _ => carrying.bound) tail
    | false => exact Carries.bind (Carries.pure []) tail
  · refine Carries.ifAhead s.blind_lifetime (fun _ => ?_) fun _ => ?_
    · refine Carries.bind Carries.takeLifetime fun name c₂ => Carries.bind (Carries.someOp _) fun bounded c₃ => ?_
      cases bounded with
      | true =>
          exact Carries.bind (Carries.chainUntil s.blind_argEnd fun _ => Carries.takeLifetime) fun _ _ => Carries.pure _
      | false => exact Carries.bind (Carries.pure []) fun _ _ => Carries.pure _
    · refine Carries.bind (Carries.someWord _) fun isConst c₂ => ?_
      cases isConst with
      | false => exact Carries.fail
      | true =>
          refine Carries.bind Carries.ident fun name _ => Carries.bind (Carries.op _) fun _ _ => ?_
          refine Carries.bind carrying.ty fun t _ => Carries.bind (Carries.someOp _) fun valued _ => ?_
          cases valued with
          | true => exact Carries.bind constArg fun _ _ => Carries.pure _
          | false => exact Carries.pure _

theorem binder (carrying : Carrying s r) : Kept s binder? r c := by
  refine Carries.bind (Carries.someWord _) fun word _ => ?_
  cases word with
  | true =>
      refine Carries.bind (Carries.op _) fun _ _ => Carries.bind ?_ fun _ _ => Carries.bind (Carries.op _) fun _ _ => Carries.pure _
      exact Carries.listUntil (s.blind_op _) (fun _ => Carries.captured fun _ _ => carrying.genericParam) fun _ => Carries.op _
  | false => exact Carries.pure none

/-- A trait behind what may stand in front of its question mark. -/
theorem traitTail (carrying : Carrying s r) (inParens constant : Bool) (outer : Option Binder) : Kept s (do
      let mark := (← get).place
      let relaxed ← takeOp? ['?']
      let binder ← if outer.isNone && relaxed then binder? else pure outer
      let rooted ← takeOp? [':', ':']
      let path ← Parsing.callArgs (← Parsing.segments false)
      if relaxed && binder.isSome then refuse mark
      return if constant then none else some (Bound.trait inParens relaxed binder rooted path)) r c := by
  refine Carries.get fun under => Carries.bind (Carries.someOp _) fun relaxed c₁ => ?_
  have tail : ∀ (binder : Option Binder) c', Carries s (do
        let rooted ← takeOp? [':', ':']
        let path ← Parsing.callArgs (← Parsing.segments false)
        if relaxed && binder.isSome then refuse c.place
        return if constant then none else some (Bound.trait inParens relaxed binder rooted path)) (do
        let rooted ← takeOp? [':', ':']
        let path ← Parsing.callArgs (← Parsing.segments false)
        if relaxed && binder.isSome then refuse (s.move under c).place
        return if constant then none else some (Bound.trait inParens relaxed binder rooted path)) r c' := by
    intro binder c'
    refine Carries.bind (Carries.someOp _) fun rooted _ => Carries.bind (carrying.segments false) fun path _ => ?_
    refine Carries.bind (carrying.callArgs path) fun segments _ => ?_
    dsimp only
    split
    · exact Carries.bind Carries.refuse fun _ _ => Carries.pure _
    · exact Carries.pure _
  dsimp only
  split
  · exact Carries.bind carrying.binder tail
  · exact Carries.bind (Carries.pure outer) tail

theorem traitBound (carrying : Carrying s r) (consts inParens : Bool) : Kept s (traitBound consts inParens) r c := by
  refine Carries.bind carrying.binder fun outer c₁ => Carries.get fun under => ?_
  refine Carries.bind (Carries.ahead (s.blind_opens (by decide))) fun conditional c₂ => ?_
  cases conditional with
  | true =>
      refine Carries.bind (Carries.pure true) fun constant c₃ => Carries.bind (Carries.within _ _) fun _ c₄ => ?_
      dsimp only
      split
      · exact Carries.bind Carries.refuse fun _ _ => carrying.traitTail _ _ _
      · exact carrying.traitTail _ _ _
  | false =>
      refine Carries.bind (Carries.ahead (s.blind_word _)) fun constant c₃ => ?_
      cases constant with
      | true =>
          refine Carries.bind (Carries.word _) fun _ c₄ => ?_
          dsimp only
          split
          · exact Carries.bind Carries.refuse fun _ _ => carrying.traitTail _ _ _
          · exact carrying.traitTail _ _ _
      | false => exact carrying.traitTail _ _ _

theorem capturedParams : Kept s capturedParams r c := by
  refine Carries.bind (Carries.word _) fun _ _ => Carries.bind (Carries.op _) fun _ _ => ?_
  refine Carries.bind (Carries.listUntil (s.blind_op _) (fun _ => ?_) fun _ => Carries.op _) fun _ _ => Carries.op _
  refine Carries.ifAhead s.blind_lifetime (fun _ => Carries.bind Carries.takeLifetime fun _ _ => Carries.pure ()) fun _ => ?_
  refine Carries.ifAhead (s.blind_ident.or (s.blind_word _)) (fun _ => ?_) fun _ => Carries.fail
  exact Carries.bind Carries.anyIdent fun _ _ => Carries.pure ()

/-- A bound, as the rule stands for it. -/
theorem boundOf (carrying : Carrying s r) (captures consts : Bool) : Kept s (Parsing.bound captures consts) r c := by
  refine Carries.ifAhead s.blind_lifetime (fun _ => Carries.bind Carries.takeLifetime fun _ _ => Carries.pure _) fun _ => ?_
  refine Carries.ifAhead (s.blind_word _) (fun _ => Carries.get fun under => Carries.bind ?_ fun found c' => ?_) fun _ => ?_
  · exact Carries.captured fun _ _ => capturedParams
  · cases captures with
    | true => exact Carries.pure _
    | false => exact Carries.refuse
  · refine Carries.bind (Carries.asWrittenWhen ?_) fun found _ => Carries.pure _
    exact Carries.ifAhead (s.blind_opens (by decide)) (fun _ => Carries.within _ _) fun _ => carrying.traitBound _ _

/-- What follows the first bound of a sum. -/
theorem boundsBehind (carrying : Carrying s r) (captures consts : Bool) (first : Bound) {few many : Nat} (le : few ≤ many) :
    Carries s (do
      if ← takeOp? ['+'] then
        if ← ahead fun t => Ahead.bound t || (consts && Ahead.opens .bracket t) then
          return first :: (← boundRounds (nested (.bound captures consts))
            (fun t => Ahead.bound t || (consts && Ahead.opens .bracket t)) few)
      return [first]) (do
      if ← takeOp? ['+'] then
        if ← ahead fun t => Ahead.bound t || (consts && Ahead.opens .bracket t) then
          return first :: (← boundRounds (nested (.bound captures consts))
            (fun t => Ahead.bound t || (consts && Ahead.opens .bracket t)) many)
      return [first]) r c := by
  have another : s.Blind fun t => Ahead.bound t || (consts && Ahead.opens .bracket t) :=
    s.blind_bound.or ((Border.Blind.const _).and (s.blind_opens (by decide)))
  induction few generalizing many first c with
  | zero =>
      refine Carries.bind (Carries.someOp _) fun plus c₁ => ?_
      cases plus with
      | false => exact Carries.pure [first]
      | true =>
          refine Carries.ifAhead another (fun _ => ?_) fun _ => Carries.pure [first]
          exact fun a c' ran => by cases ran
  | succ few ih =>
      obtain ⟨many, rfl⟩ := Nat.exists_eq_succ_of_ne_zero (Nat.ne_of_gt (Nat.lt_of_lt_of_le (Nat.succ_pos few) le))
      refine Carries.bind (Carries.someOp _) fun plus c₁ => ?_
      cases plus with
      | false => exact Carries.pure [first]
      | true =>
          refine Carries.ifAhead another (fun _ => ?_) fun _ => Carries.pure [first]
          refine Carries.bind (Carries.bind carrying.bound fun next c₂ => ?_) fun _ _ => Carries.pure _
          exact ih next (Nat.le_of_succ_le_succ le)

theorem boundSum (carrying : Carrying s r) (sums captures consts : Bool) : Kept s (boundSum sums captures consts) r c := by
  cases sums with
  | false => exact Carries.bind carrying.bound fun _ _ => Carries.pure _
  | true =>
      refine Carries.get fun _ => Carries.bind carrying.bound fun first _ => ?_
      exact carrying.boundsBehind captures consts first (Border.length_le_move c)

theorem addedBounds (carrying : Carrying s r) {another : List TokenTree → Bool} (blind : s.Blind another) :
    Kept s (addedBounds another) r c := by
  refine Carries.rounds rfl fun few many ih c' => Carries.bind (Carries.someOp _) fun plus c₁ => ?_
  cases plus with
  | false => exact Carries.pure []
  | true =>
      refine Carries.ifAhead blind (fun _ => ?_) fun _ => Carries.pure []
      exact Carries.bind carrying.bound fun next c₂ => Carries.bind (ih c₂) fun _ _ => Carries.pure _

/-! Arguments. -/

/-- A literal or a block stands before the border, or what is read there is not kept. -/
theorem literal_or_block (t : TokenTree) (ts : List TokenTree) :
    (Ahead.literal (t :: (ts ++ s.near)) || Ahead.opens .brace (t :: (ts ++ s.near)))
      = (Ahead.literal (t :: (ts ++ s.far)) || Ahead.opens .brace (t :: (ts ++ s.far))) := by
  have literal := s.blind_literal (t :: ts)
  rw [List.cons_append, List.cons_append] at literal
  rw [literal]
  cases t <;> rfl

theorem associatedArg (carrying : Carrying s r) (alone : Ty) (name : Ident) (args : Option (List GenericArg)) :
    Kept s (associatedArg alone name args) r c := by
  refine Carries.bind (Carries.someOp _) fun valued c₁ => ?_
  cases valued with
  | true =>
      refine Carries.ifSolid literal_or_block (fun _ => Carries.bind constArg fun _ _ => Carries.pure _)
        (fun _ => Carries.bind carrying.ty fun _ _ => Carries.pure _) fun bare => ?_
      refine Yields.ifAhead (fun _ => ?_) fun _ => ?_
      · exact Yields.bind (stuck_constArg bare) fun _ _ stuck => Yields.pure stuck
      · exact Yields.bind (carrying.noType bare) fun _ _ none => none.elim
  | false =>
      refine Carries.bind (Carries.someOp _) fun bounded c₂ => ?_
      cases bounded with
      | true => exact Carries.bind (Carries.chainUntil s.blind_argEnd fun _ => carrying.bound) fun _ _ => Carries.pure _
      | false => exact Carries.pure _

theorem typeArg (carrying : Carrying s r) : Kept s typeArg r c := by
  refine Carries.bind carrying.ty fun t c' => ?_
  split
  · exact carrying.associatedArg _ _ _
  · exact carrying.associatedArg _ _ _
  · exact Carries.pure _

theorem genericArg (carrying : Carrying s r) : Kept s genericArg r c := by
  have lifetimeAlone : s.Blind fun t => Ahead.lifetime t && !Ahead.op ['+'] (Ahead.next t) :=
    s.blind_lifetime.next (s.false_at_near rfl fun _ => rfl) (s.blind_op _).not
  refine Carries.ifAhead lifetimeAlone (fun _ => Carries.bind Carries.takeLifetime fun _ _ => Carries.pure _) fun _ => ?_
  refine Carries.ifSolid literal_or_block (fun _ => ?_) (fun _ => ?_) fun bare => ?_
  · exact Carries.bind (Carries.captured fun _ _ => constArg) fun _ _ => Carries.pure _
  · refine Carries.bind (Carries.captured fun _ _ => carrying.typeArg) fun found _ => ?_
    split <;> exact Carries.pure _
  · refine Yields.ifAhead (fun _ => ?_) fun _ => ?_
    · refine Yields.bind (Carries.stuck_captured fun c' same => stuck_constArg (same.trans bare)) fun _ _ stuck => ?_
      exact Yields.pure stuck
    · refine Yields.bind (P := fun _ c' => ¬ s.Before c') (Carries.stuck_captured fun c' same => ?_) fun _ _ stuck => ?_
      · exact Yields.bind (carrying.noType (same.trans bare)) fun _ _ none => none.elim
      · split <;> exact Yields.pure stuck

theorem angleArgsOf (carrying : Carrying s r) : Kept s Parsing.angleArgs r c := by
  refine Carries.bind (Carries.op _) fun _ _ => Carries.bind ?_ fun _ _ => Carries.bind (Carries.op _) fun _ _ => Carries.pure _
  exact Carries.listUntil (s.blind_op _) (fun _ => carrying.genericArg) fun _ => Carries.op _

/-! Types. -/

theorem objectBounds (carrying : Carrying s r) {place place' : Place} (sums : Bool) :
    Carries s (objectBounds place sums) (objectBounds place' sums) r c := by
  refine Carries.bind (carrying.boundSum _ _ _) fun bounds _ => ?_
  split
  · exact Carries.pure _
  · exact Carries.refuse

theorem implType (carrying : Carrying s r) (sums : Bool) : Kept s (implType sums) r c := by
  refine Carries.get fun _ => Carries.bind (Carries.word _) fun _ _ => Carries.bind (carrying.boundSum _ _ _) fun bounds _ => ?_
  split
  · exact Carries.refuse
  · exact Carries.pure _

theorem abi : Kept s abi? r c := by
  refine Carries.bind (Carries.someWord _) fun named _ => ?_
  cases named with
  | true =>
      refine Carries.ifAhead s.blind_textLiteral (fun _ => ?_) fun _ => Carries.pure _
      exact Carries.bind Carries.textLiteral fun _ _ => Carries.pure _
  | false => exact Carries.pure none

theorem functionType (carrying : Carrying s r) (binder : Option Binder) : Kept s (functionType binder) r c := by
  refine Carries.bind (Carries.someWord _) fun isUnsafe _ => Carries.bind abi fun convention _ => ?_
  refine Carries.bind (Carries.word _) fun _ _ => Carries.bind (Carries.within _ _) fun inputs _ => ?_
  exact Carries.bind (carrying.returnType false) fun _ _ => Carries.pure _

theorem parenType (carrying : Carrying s r) (sums : Bool) : Kept s (parenType sums) r c := by
  refine Carries.bind (Carries.within _ _) fun found _ => ?_
  cases found with
  | tuple elements => exact Carries.pure _
  | firstBound first =>
      exact Carries.bind (carrying.addedBounds (Border.Blind.const true)) fun _ _ => Carries.pure _
  | single inner =>
      dsimp only
      split
      · refine Carries.ifAhead (s.blind_plus sums) (fun _ => ?_) fun _ => Carries.pure _
        exact Carries.bind (carrying.addedBounds (Border.Blind.const true)) fun _ _ => Carries.pure _
      · exact Carries.pure _

/-- A path, or a macro call that it begins. -/
theorem pathOrMacro (carrying : Carrying s r) : Kept s (do
    let ty ← Parsing.typePath false
    if ← ahead fun t => isModPath ty && Ahead.op ['!'] t && !Ahead.op ['!', '='] t then
      takeOp ['!']
      let _ ← takeGroup
      return (ty, true)
    else return (ty, false)) r c := by
  refine Carries.bind (carrying.typePath false) fun t _ => Carries.ifAhead (s.blind_macro _) (fun _ => ?_) fun _ => Carries.pure _
  exact Carries.bind (Carries.op _) fun _ _ => Carries.bind Carries.takeGroup fun _ _ => Carries.pure _

theorem pathBound (carrying : Carrying s r) (sums : Bool) (binder : Option Binder) (rooted : Bool) (segments : List Segment) :
    Kept s (pathBound sums binder rooted segments) r c := by
  refine Carries.bind (Carries.ahead (s.blind_plus sums)) fun more c₂ => ?_
  dsimp only
  split
  · split
    · exact Carries.bind (carrying.addedBounds s.blind_bound) fun _ _ => Carries.pure _
    · exact Carries.pure _
  · exact Carries.pure _

theorem pathType (carrying : Carrying s r) (sums : Bool) (binder : Option Binder) : Kept s (pathType sums binder) r c := by
  refine Carries.bind (Carries.captured fun c' _ => carrying.pathOrMacro) fun found c₁ => ?_
  obtain ⟨⟨t, isMacro⟩, lexemes⟩ := found
  cases isMacro with
  | true => exact Carries.pure _
  | false =>
      cases t with
      | path rooted segments => exact carrying.pathBound sums binder rooted segments
      | _ => exact Carries.pure _

/-- A trait object, with what stands behind its first word. -/
theorem namedObject (carrying : Carrying s r) {place place' : Place} (sums : Bool) :
    Carries s (do
        let ((bounds, starred), lexemes) ← asWrittenWhen (·.2) do
          takeWord "dyn"
          let starred ← takeOp? ['*']
          return (← Parsing.objectBounds place sums, starred)
        return if starred then Ty.verbatim lexemes else .object true bounds) (do
        let ((bounds, starred), lexemes) ← asWrittenWhen (·.2) do
          takeWord "dyn"
          let starred ← takeOp? ['*']
          return (← Parsing.objectBounds place' sums, starred)
        return if starred then Ty.verbatim lexemes else .object true bounds) r c := by
  refine Carries.bind (Carries.asWrittenWhen ?_) fun _ _ => Carries.pure _
  refine Carries.bind (Carries.word _) fun _ _ => Carries.bind (Carries.someOp _) fun starred _ => ?_
  exact Carries.bind (carrying.objectBounds sums) fun _ _ => Carries.pure _

theorem pointer (carrying : Carrying s r) : Kept s (do
    if ← takeWord? "const" then return Ty.pointer false (← nested (.ty false))
    else if ← takeWord? "mut" then return .pointer true (← nested (.ty false))
    else fail) r c := by
  refine Carries.bind (Carries.someWord _) fun isConst _ => ?_
  cases isConst with
  | true => exact Carries.bind carrying.ty fun _ _ => Carries.pure _
  | false =>
      refine Carries.bind (Carries.someWord _) fun isMut _ => ?_
      cases isMut with
      | true => exact Carries.bind carrying.ty fun _ _ => Carries.pure _
      | false => exact Carries.fail

theorem reference (carrying : Carrying s r) : Kept s (do
    let lifetime ← takeLifetime?
    let isMut ← takeWord? "mut"
    return Ty.reference lifetime isMut (← nested (.ty false))) r c := by
  refine Carries.bind Carries.someLifetime fun _ _ => Carries.bind (Carries.someWord _) fun _ _ => ?_
  exact Carries.bind carrying.ty fun _ _ => Carries.pure _

/-- A type, as the rule stands for it. -/
theorem typeOf (carrying : Carrying s r) (sums : Bool) : Kept s (typeOf sums) r c := by
  refine Carries.bind carrying.binder fun binder c₁ => Carries.bind (Carries.ahead s.blind_bindable) fun bindable c₂ => ?_
  refine Carries.ite (fun _ => Carries.bindYields Carries.fail (P := fun _ _ => False) Yields.fail fun _ _ no => no.elim) fun _ => ?_
  refine Carries.ifAhead (s.blind_opens (by decide)) (fun _ => carrying.parenType sums) fun _ => ?_
  refine Carries.ifAhead s.blind_functionType (fun _ => carrying.functionType binder) fun _ => ?_
  refine Carries.ifAhead s.blind_pathType (fun _ => carrying.pathType sums binder) fun _ => ?_
  refine Carries.ifAhead (s.blind_word _) (fun _ => Carries.get fun _ => carrying.namedObject sums) fun _ => ?_
  refine Carries.ifAhead (s.blind_opens (by decide)) (fun _ => Carries.within _ _) fun _ => ?_
  refine Carries.bind (Carries.someOp _) fun star c₂ => ?_
  cases star with
  | true => exact carrying.pointer
  | false =>
      refine Carries.bind (Carries.someOp _) fun ampersand c₃ => ?_
      cases ampersand with
      | true => exact carrying.reference
      | false =>
          refine Carries.bind (Carries.someOp _) fun bang c₄ => ?_
          cases bang with
          | true => exact Carries.pure _
          | false =>
              refine Carries.ifAhead (s.blind_word _) (fun _ => carrying.implType sums) fun _ => ?_
              refine Carries.bind (Carries.someWord _) fun underscore c₅ => ?_
              cases underscore with
              | true => exact Carries.pure _
              | false =>
                  refine Carries.ifAhead s.blind_lifetime (fun _ => Carries.get fun _ => ?_) fun _ => Carries.fail
                  exact Carries.bind (carrying.objectBounds true) fun _ _ => Carries.pure _

/-- No type stands at the border itself. -/
theorem stuck_typeOf {sums : Bool} (bare : c.rest = s.near) : Yields (Parsing.typeOf sums) r c fun _ _ => False := by
  have refused : (Parsing.typeOf sums).run r c = some (.error c.place) := by
    obtain ⟨rest, stray, read⟩ := c
    rcases s.near_end with near | ⟨inside, near⟩ <;> obtain rfl : rest = _ := bare.trans near <;> rfl
  intro t c' ran
  rw [refused] at ran
  cases ran

end Carrying

/-- Every level of the rules reads as well where other braces stand. -/
theorem rules_carrying (s : Border) (n : Nat) : Carrying s (rules n) := by
  induction n with
  | zero =>
      -- No rule answers.
      have silent : ∀ {α : Type} (rule : Rule α) (c : Cursor) (P : α → Cursor → Prop), Yields (nested rule) (rules 0) c P := by
        intro α rule c P a c' ran
        cases ran
      exact ⟨fun a c' ran => (silent _ _ (fun _ _ => False) a c' ran).elim, fun a c' ran => (silent _ _ (fun _ _ => False) a c' ran).elim,
        fun a c' ran => (silent _ _ (fun _ _ => False) a c' ran).elim, fun _ => silent _ _ _⟩
  | succ n ih => exact ⟨ih.typeOf _, ih.boundOf _ _, ih.angleArgsOf, Carrying.stuck_typeOf⟩

end Accessors.Parsing
