import Accessors.Proofs.ParsedText
import Accessors.Proofs.TypeGrammar

/-!
What the grammar reads are types of the described form, at every level of the rules.
-/

namespace Accessors

open Parsing

/-- The path of a trait, whatever stands in front of it. -/
def TraitMade (segments : List Segment) : Prop :=
  ∀ inParens relaxed binder rooted, (relaxed = true → binder = none) →
    (Bound.trait inParens relaxed binder rooted segments).Made

namespace Parsing

variable {r : Rules} {c : Cursor}

/-- What the rules at hand yield. -/
structure Sound (r : Rules) : Prop where
  ty : ∀ {sums c}, Yields (nested (.ty sums)) r c fun t _ =>
    t.Made sums ∧ (t.leadsLifetime = true → Ahead.lifetime c.rest = true)
  bound : ∀ {captures consts c}, Yields (nested (.bound captures consts)) r c fun b _ =>
    b.Made ∧ (Ahead.lifetime c.rest = true → ∃ l, b = .lifetime l)
  args : ∀ {c}, Yields (nested .angleArgs) r c fun args _ => ∀ a ∈ args, GenericArg.Made a

/-! Paths. -/

theorem yields_segment (sound : Sound r) :
    Yields (segment false) r c fun s _ => s.Made ∧ ∃ rest, c.rest = .leaf (.ident s.name) :: rest := by
  refine Yields.ifAhead (fun bare => ?_) fun _ => ?_
  · refine Yields.bind Yields.anyIdent fun name _ named => Yields.pure ⟨.plain ?_, named⟩
    obtain ⟨rest, same⟩ := named
    rw [same] at bare
    simp only [Ahead.bareSegment, Ahead.word, Bool.or_eq_true, beq_iff_eq] at bare
    rcases bare with ((listed | listed) | listed) | listed
    · exact Or.inl (Or.inr (by simp [listed]))
    · exact Or.inl (Or.inr (by simp [listed]))
    · exact Or.inl (Or.inr (by simp [listed]))
    · exact Or.inr listed
  · -- What takes arguments may also stand without them.
    have tail : ∀ name c', name.TakesArgs → (∃ rest, c.rest = .leaf (.ident name) :: rest) →
        Yields (do
          if ← ahead (Ahead.angleArgs false) then
            let turbofish ← takeOp? [':', ':']
            return Segment.angle name turbofish (← nested .angleArgs)
          else return .plain name) r c' fun s _ => s.Made ∧ ∃ rest, c.rest = .leaf (.ident s.name) :: rest := by
      intro name c' takes named
      refine Yields.ifAhead (fun _ => Yields.step fun turbofish c'' => ?_) fun _ => ?_
      · exact Yields.bind sound.args fun args _ each => Yields.pure ⟨.angle takes each, named⟩
      · exact Yields.pure ⟨.plain (Or.inl (takes.elim Or.inl fun same => Or.inr (by simp [same]))), named⟩
    refine Yields.ifAhead (fun own => ?_) fun _ => ?_
    · refine Yields.bind Yields.anyIdent fun name c' named => tail name c' (Or.inr ?_) named
      obtain ⟨rest, same⟩ := named
      rw [same] at own
      simpa [Ahead.word] using own
    · exact Yields.bind Yields.ident fun name c' named => tail name c' (Or.inl named.1) named.2

/-- Segments, and the name that they begin with. -/
def PathFrom (ts : List TokenTree) (segments : List Segment) : Prop :=
  (∀ s ∈ segments, s.Made) ∧ ∃ s more, segments = s :: more ∧ ∃ rest, ts = .leaf (.ident s.name) :: rest

theorem yields_segments (sound : Sound r) :
    Yields (segments false) r c fun path _ => PathFrom c.rest path := by
  have rounds : ∀ count c, Yields (segmentRounds false count) r c fun path _ => PathFrom c.rest path := by
    intro count
    induction count with
    | zero => exact fun _ => Yields.fail
    | succ count ih =>
        refine fun c => Yields.bind (yields_segment sound) fun s c' first => ?_
        refine Yields.ifAhead (fun _ => Yields.step fun _ c'' => ?_) fun _ => ?_
        · refine Yields.bind (ih c'') fun more _ later => Yields.pure ?_
          exact ⟨List.forall_mem_cons.mpr ⟨first.1, later.1⟩, s, more, rfl, first.2⟩
        · exact Yields.pure ⟨List.forall_mem_singleton.mpr first.1, s, [], rfl, first.2⟩
  exact Yields.get (rounds _ c)

theorem yields_projectionRounds (sound : Sound r) (count : Nat) :
    Yields (projectionRounds false count) r c fun path _ => path ≠ [] ∧ ∀ s ∈ path, s.Made := by
  induction count generalizing c with
  | zero => exact Yields.fail
  | succ count ih =>
      refine Yields.bind (yields_segment sound) fun s c' first => ?_
      refine Yields.step fun more c'' => ?_
      cases more with
      | true =>
          exact Yields.bind ih fun path _ later =>
            Yields.pure ⟨List.cons_ne_nil s path, List.forall_mem_cons.mpr ⟨first.1, later.2⟩⟩
      | false => exact Yields.pure ⟨List.cons_ne_nil s [], List.forall_mem_singleton.mpr first.1⟩

/-- The name that a path begins with where a type stands. -/
theorem heads_of_pathType {ts rest : List TokenTree} {name : Ident} (front : Ahead.pathType ts = true)
    (named : ts = .leaf (.ident name) :: rest) : name.Heads := by
  rw [named] at front
  simp only [Ahead.pathType, Ahead.ident, Ahead.pathWord, Ahead.word, Ahead.colons, Ahead.op, Bool.or_false,
    Bool.or_eq_true, Bool.not_eq_true', beq_iff_eq] at front
  rcases front with free | ((listed | listed) | listed) | listed
  · exact Or.inl (show name.text ∉ reserved by simpa using free)
  all_goals exact Or.inr (by simp [listed])

/-- What is read as a path at the given tokens. -/
inductive PathLike (ts : List TokenTree) : Ty → Prop where
  | path {rooted segments} : (∀ s ∈ segments, Segment.Made s) → (Ahead.pathType ts = true → HeadsPath rooted segments) →
      (Ahead.anyIdent ts = true → rooted = false) → PathLike ts (.path rooted segments)
  | projection {subject traitRooted traitPath rest} :
      (∀ sums, (Ty.projection subject traitRooted traitPath rest).Made sums) →
      PathLike ts (.projection subject traitRooted traitPath rest)

theorem yields_typePath (sound : Sound r) : Yields (typePath false) r c fun t _ => PathLike c.rest t := by
  refine Yields.bind Yields.someOp fun angle c' found => ?_
  obtain ⟨found, stays⟩ := found
  cases angle with
  | true =>
      refine Yields.bind sound.ty fun subject c'' inner => ?_
      have tail : ∀ (trait : Bool × List Segment) c₀, (∀ s ∈ trait.2, Segment.Made s) → Yields (do
            takeOp ['>']
            takeOp [':', ':']
            let rest ← projectionRounds false ((← get).rest.length + 1)
            return Ty.projection subject trait.1 trait.2 rest) r c₀ fun t _ => PathLike c.rest t := by
        intro trait c₀ each
        refine Yields.step fun _ _ => Yields.step fun _ _ => Yields.get ?_
        refine Yields.bind (yields_projectionRounds sound _) fun rest _ made => Yields.pure (.projection fun sums => ?_)
        exact .projection inner.1 each made.1 made.2
      refine Yields.step fun trait c₀ => ?_
      cases trait with
      | true =>
          refine Yields.step fun rooted c₁ => Yields.bind (yields_segments sound) fun path c₂ made => ?_
          refine Yields.bind (P := fun found _ => found = (rooted, path)) (Yields.pure rfl) ?_
          rintro _ c₃ rfl
          exact tail (rooted, path) c₃ made.1
      | false =>
          refine Yields.bind (P := fun found _ => found = (false, [])) (Yields.pure rfl) ?_
          rintro _ c₃ rfl
          exact tail (false, []) c₃ (by simp)
  | false =>
      obtain rfl := stays rfl
      refine Yields.bind Yields.someOp fun rooted c'' colons => ?_
      refine Yields.bind (yields_segments sound) fun path _ made => Yields.pure ?_
      obtain ⟨each, s, more, rfl, rest, named⟩ := made
      refine .path each (fun front => ⟨List.cons_ne_nil s more, fun unrooted first same => ?_⟩) fun word => ?_
      · obtain rfl := colons.2 unrooted
        cases same
        exact heads_of_pathType front named
      · rw [colons.1]
        revert word
        cases c'.rest with
        | nil => exact fun word => by cases word
        | cons first rest => cases first with
          | leaf lexeme => cases lexeme <;> intro word <;> first | rfl | cases word
          | group d inside => exact fun word => by cases word

/-! Bounds. -/

theorem yields_returnType (sound : Sound r) {sums : Bool} :
    Yields (returnType sums) r c fun output _ => ∀ t, output = some t → t.Made sums := by
  refine Yields.step fun arrow c' => ?_
  cases arrow with
  | true =>
      refine Yields.bind sound.ty fun t _ made => Yields.pure fun u same => ?_
      cases same
      exact made.1
  | false => exact Yields.pure fun t same => by cases same

/-- The type rule yields types of the described form. -/
theorem yields_type (sound : Sound r) {sums : Bool} : Yields (nested (.ty sums)) r c fun t _ => t.Made sums :=
  sound.ty.mono fun _ _ made => made.1

theorem traitMade_of_segments {path : List Segment} (some : path ≠ []) (each : ∀ s ∈ path, s.Made) : TraitMade path :=
  fun _ _ _ _ unrelaxed => .trait some each unrelaxed

theorem yields_callArgs (sound : Sound r) {path : List Segment} (some : path ≠ []) (each : ∀ s ∈ path, s.Made) :
    Yields (callArgs path) r c fun segments _ => TraitMade segments := by
  unfold callArgs
  split
  · rename_i name last
    have shape : path = path.dropLast ++ [.plain name] := by
      have split := List.dropLast_concat_getLast some
      rw [List.getLast?_eq_some_getLast some] at last
      rw [Option.some.inj last] at split
      exact split.symm
    refine Yields.ifAhead (fun _ => ?_) fun _ => Yields.pure (traitMade_of_segments some each)
    have tail : ∀ c', Yields (do
          let inputs ← within .paren (commaList (nested (.ty true)))
          let output ← returnType false
          return path.dropLast ++ [Segment.call name inputs output]) r c' fun segments _ => TraitMade segments := by
      intro c'
      refine Yields.bind (Yields.within fun _ => Yields.commaList fun _ => yields_type sound) fun inputs c'' ins => ?_
      refine Yields.bind (yields_returnType sound) fun output _ out => Yields.pure fun _ _ _ _ unrelaxed => ?_
      rw [shape] at each
      refine .call (fun s member => each s (List.mem_append_left _ member)) ?_ ins out unrelaxed
      cases each (.plain name) (by simp) with
      | plain names => exact names
    exact Yields.ifAhead (fun _ => Yields.step fun _ c' => tail c') fun _ => tail c
  · exact Yields.pure (traitMade_of_segments some each)

/-- The word `for` opens a binder. Without it nothing is read. -/
theorem yields_binder :
    Yields binder? r c fun binder c' => binder.isSome = Ahead.word "for" c.rest ∧ (binder = none → c' = c) := by
  refine Yields.bind Yields.someWord fun word c' found => ?_
  cases word with
  | true =>
      exact Yields.step fun _ _ => Yields.step fun _ _ => Yields.step fun _ _ => Yields.pure ⟨found.1, fun no => by cases no⟩
  | false => exact Yields.pure ⟨found.1, fun _ => found.2 rfl⟩

theorem mark_of_op {ts : List TokenTree} {m : Char} (mark : Ahead.op [m] ts = true) :
    ∃ joint rest, ts = .leaf (.punct m joint) :: rest := by
  match ts, mark with
  | .leaf (.punct d joint) :: rest, mark =>
      obtain rfl : m = d := by simpa [Ahead.op] using mark
      exact ⟨joint, rest, rfl⟩

/-- No binder begins with a question mark. -/
theorem yields_noBinder (mark : Ahead.op ['?'] c.rest = true) :
    Yields binder? r c fun binder c' => binder = none ∧ c' = c := by
  refine yields_binder.mono fun binder c' found => ?_
  obtain ⟨joint, rest, front⟩ := mark_of_op mark
  have none : binder = none := by
    rw [front] at found
    exact Option.isSome_eq_false_iff.mp found.1 |> Option.isNone_iff_eq_none.mp
  exact ⟨none, found.2 none⟩

/-- What is read as a trait. -/
def TraitFound (inParens : Bool) (b : Bound) (relaxed : Bool) : Prop :=
  b.Made ∧ ∃ binder rooted segments, b = .trait inParens relaxed binder rooted segments

/-- A trait behind what may stand in front of its question mark. -/
theorem yields_traitTail (sound : Sound r) {constant inParens : Bool} {outer : Option Binder} :
    Yields (do
      let mark := (← get).place
      let relaxed ← takeOp? ['?']
      let binder ← if outer.isNone && relaxed then binder? else pure outer
      let rooted ← takeOp? [':', ':']
      let path ← callArgs (← segments false)
      if relaxed && binder.isSome then refuse mark
      return if constant then none else some (Bound.trait inParens relaxed binder rooted path)) r c fun found _ =>
        ∀ b, found = some b → TraitFound inParens b (Ahead.op ['?'] c.rest) := by
  refine Yields.get (Yields.bind Yields.someOp fun relaxed c₁ mark => ?_)
  have tail : ∀ binder c', Yields (do
        let rooted ← takeOp? [':', ':']
        let path ← callArgs (← segments false)
        if relaxed && binder.isSome then refuse c.place
        return if constant then none else some (Bound.trait inParens relaxed binder rooted path)) r c' fun found _ =>
      ∀ b, found = some b → TraitFound inParens b (Ahead.op ['?'] c.rest) := by
    intro binder c'
    refine Yields.step fun rooted c'' => Yields.bind (yields_segments sound) fun path c₃ made => ?_
    obtain ⟨each, s, more, rfl, -⟩ := made
    refine Yields.bind (yields_callArgs sound (List.cons_ne_nil s more) each) fun segments c₄ trait => ?_
    dsimp only
    split
    · exact Yields.bind (P := fun _ _ => False) Yields.refuse fun _ _ no => no.elim
    · rename_i unrelaxed
      have apart : relaxed = true → binder = none := by
        intro on
        simpa [on] using unrelaxed
      refine Yields.pure fun b same => ?_
      split at same
      · cases same
      · cases same
        rw [← mark.1]
        exact ⟨trait inParens relaxed binder rooted apart, binder, rooted, segments, rfl⟩
  dsimp only
  split
  · exact Yields.step fun binder c' => tail binder c'
  · exact Yields.step fun binder c' => tail binder c'

theorem yields_traitBound (sound : Sound r) {consts inParens : Bool} :
    Yields (traitBound consts inParens) r c fun found _ =>
      ∀ b, found = some b → ∃ relaxed, TraitFound inParens b relaxed := by
  have tail : ∀ (constant : Bool) outer c', Yields (do
        let mark := (← get).place
        let relaxed ← takeOp? ['?']
        let binder ← if outer.isNone && relaxed then binder? else pure outer
        let rooted ← takeOp? [':', ':']
        let path ← callArgs (← segments false)
        if relaxed && binder.isSome then refuse mark
        return if constant then none else some (Bound.trait inParens relaxed binder rooted path)) r c' fun found _ =>
      ∀ b, found = some b → ∃ relaxed, TraitFound inParens b relaxed :=
    fun constant outer c' => (yields_traitTail sound).mono fun found c'' made b same => ⟨_, made b same⟩
  refine Yields.step fun outer c₁ => Yields.get (Yields.step fun conditional c₂ => ?_)
  cases conditional with
  | true =>
      refine Yields.bind (P := fun constant _ => constant = true) (Yields.pure rfl) ?_
      rintro _ c₃ rfl
      refine Yields.step fun _ c₄ => ?_
      cases consts with
      | true => exact tail true outer c₄
      | false => exact Yields.bind (P := fun _ _ => False) Yields.refuse fun _ _ no => no.elim
  | false =>
      refine Yields.step fun constant c₃ => ?_
      cases constant with
      | true =>
          refine Yields.step fun _ c₄ => ?_
          cases consts with
          | true => exact tail true outer c₄
          | false => exact Yields.bind (P := fun _ _ => False) Yields.refuse fun _ _ no => no.elim
      | false => exact tail false outer c₃

/-- A question mark ahead makes the trait a relaxed one. -/
theorem yields_relaxed (sound : Sound r) {consts inParens : Bool} (mark : Ahead.op ['?'] c.rest = true) :
    Yields (traitBound consts inParens) r c fun found _ => ∀ b, found = some b → TraitFound inParens b true := by
  obtain ⟨joint, rest, front⟩ := mark_of_op mark
  have noBracket : Ahead.opens .bracket c.rest = false := by rw [front]; rfl
  have noConst : Ahead.word "const" c.rest = false := by rw [front]; rfl
  refine Yields.bind (yields_noBinder mark) ?_
  rintro _ _ ⟨rfl, rfl⟩
  refine Yields.get (Yields.bind Yields.ahead ?_)
  rintro _ _ ⟨rfl, rfl⟩
  rw [noBracket]
  refine Yields.bind Yields.ahead ?_
  rintro _ _ ⟨rfl, rfl⟩
  rw [noConst]
  exact (yields_traitTail sound).mono fun found _ made b same => mark ▸ made b same

theorem yields_bound (sound : Sound r) {captures consts : Bool} : Yields (bound captures consts) r c fun b _ =>
    b.Made ∧ (Ahead.lifetime c.rest = true → ∃ l, b = .lifetime l) := by
  refine Yields.ifAhead (fun _ => Yields.step fun l _ => Yields.pure ⟨.lifetime, fun _ => ⟨l, rfl⟩⟩) fun other => ?_
  have apart : ∀ b : Bound, Ahead.lifetime c.rest = true → ∃ l, b = .lifetime l :=
    fun _ seen => absurd seen (by simp [other])
  refine Yields.ifAhead (fun _ => Yields.get (Yields.step fun use _ => ?_)) fun _ => ?_
  · cases captures with
    | true => exact Yields.pure ⟨.verbatim, apart _⟩
    | false => exact Yields.refuse
  · have trait : ∀ inParens c', Yields (traitBound consts inParens) r c' fun found _ => ∀ b, found = some b → b.Made :=
      fun inParens c' => (yields_traitBound sound).mono fun found _ made b same => (made b same).elim fun _ made => made.1
    refine Yields.bind (Yields.asWrittenWhen (V := fun found => ∀ b, found = some b → b.Made) ?_) fun found _ made => ?_
    · exact Yields.ifAhead (fun _ => Yields.within (trait true)) fun _ => trait false c
    · refine Yields.pure ⟨?_, apart _⟩
      cases same : found.1 with
      | none => exact .verbatim
      | some b => exact made b same

theorem yields_boundRounds (sound : Sound r) {captures consts : Bool} {another : List TokenTree → Bool} (count : Nat) :
    Yields (boundRounds (nested (.bound captures consts)) another count) r c fun bounds _ =>
      (∀ b ∈ bounds, b.Made) ∧ bounds ≠ [] ∧ (Ahead.lifetime c.rest = true → ∃ l more, bounds = .lifetime l :: more) := by
  induction count generalizing c with
  | zero => exact Yields.fail
  | succ count ih =>
      refine Yields.bind sound.bound fun b c' first => ?_
      have alone : (∀ other ∈ [b], Bound.Made other) ∧ [b] ≠ []
          ∧ (Ahead.lifetime c.rest = true → ∃ l more, [b] = .lifetime l :: more) :=
        ⟨List.forall_mem_singleton.mpr first.1, List.cons_ne_nil b [], fun seen => by
          obtain ⟨l, rfl⟩ := first.2 seen
          exact ⟨l, [], rfl⟩⟩
      refine Yields.step fun plus c'' => ?_
      cases plus with
      | true =>
          refine Yields.ifAhead (fun _ => Yields.bind ih fun more _ later => Yields.pure ?_) fun _ => Yields.pure alone
          refine ⟨List.forall_mem_cons.mpr ⟨first.1, later.1⟩, List.cons_ne_nil b more, fun seen => ?_⟩
          obtain ⟨l, rfl⟩ := first.2 seen
          exact ⟨l, more, rfl⟩
      | false => exact Yields.pure alone

theorem yields_boundSum (sound : Sound r) {sums captures consts : Bool} :
    Yields (boundSum sums captures consts) r c fun bounds _ => (∀ b ∈ bounds, b.Made) ∧ (sums = false → bounds.length = 1)
      ∧ (Ahead.lifetime c.rest = true → ∃ l more, bounds = .lifetime l :: more) := by
  cases sums with
  | true =>
      refine Yields.get ((yields_boundRounds sound _).mono fun bounds _ made => ?_)
      exact ⟨made.1, fun off => (by cases off), made.2.2⟩
  | false =>
      refine Yields.bind sound.bound fun b _ made => Yields.pure ⟨List.forall_mem_singleton.mpr made.1, fun _ => rfl, ?_⟩
      intro seen
      obtain ⟨l, rfl⟩ := made.2 seen
      exact ⟨l, [], rfl⟩

/-! Arguments. -/

theorem yields_associatedArg (sound : Sound r) {alone : Ty} (made : alone.Made true) {name : Ident}
    {args : Option (List GenericArg)} (heads : name.Heads)
    (takes : ∀ own, args = some own → name.TakesArgs ∧ ∀ a ∈ own, a.Made) :
    Yields (associatedArg alone name args) r c fun a _ => a.Made := by
  refine Yields.step fun equals c' => ?_
  cases equals with
  | true =>
      refine Yields.ifAhead (fun _ => Yields.step fun _ _ => Yields.pure .const) fun _ => ?_
      refine Yields.bind (yields_type sound) fun t _ own => Yields.pure ?_
      cases args with
      | none => exact .binding heads own
      | some args => exact .bindingArgs (takes args rfl).1 (takes args rfl).2 own
  | false =>
      refine Yields.step fun colon c'' => ?_
      cases colon with
      | true =>
          have each : ∀ c₀, Yields (nested (.bound false true)) r c₀ fun b _ => b.Made :=
            fun c₀ => sound.bound.mono fun _ _ made => made.1
          exact Yields.bind (Yields.chainUntil each) fun bounds _ each => Yields.pure (.constraint heads each)
      | false => exact Yields.pure (.type made)

theorem yields_typeArg (sound : Sound r) : Yields typeArg r c fun a _ => a.Made := by
  refine Yields.bind (yields_type sound) fun t c' made => ?_
  split
  · rename_i name
    cases made with
    | path heads each =>
        exact yields_associatedArg sound (.path heads each) (heads.2 rfl _ rfl) fun _ same => by cases same
  · rename_i name turbofish args
    cases made with
    | path heads each =>
        refine yields_associatedArg sound (.path heads each) (heads.2 rfl _ rfl) fun own same => ?_
        cases same
        cases each _ List.mem_cons_self with
        | angle takes each => exact ⟨takes, each⟩
  · exact Yields.pure (.type made)

theorem yields_genericArg (sound : Sound r) : Yields genericArg r c fun a _ => a.Made := by
  refine Yields.ifAhead (fun _ => Yields.step fun l _ => Yields.pure .lifetime) fun _ => ?_
  refine Yields.ifAhead (fun _ => Yields.step fun _ _ => Yields.pure .const) fun _ => ?_
  refine Yields.bind (Yields.captured fun _ _ => yields_typeArg sound) fun found _ made => ?_
  split
  · exact Yields.pure .const
  · exact Yields.pure made

theorem yields_angleArgs (sound : Sound r) : Yields angleArgs r c fun args _ => ∀ a ∈ args, GenericArg.Made a := by
  refine Yields.step fun _ c' => ?_
  refine Yields.bind (Yields.listUntil fun _ => yields_genericArg sound) fun args _ each => ?_
  exact Yields.step fun _ _ => Yields.pure each

/-! Types. -/

theorem yields_addedBounds (sound : Sound r) {another : List TokenTree → Bool} :
    Yields (addedBounds another) r c fun bounds _ => (∀ b ∈ bounds, b.Made)
      ∧ (Ahead.op ['+'] c.rest = true → (∀ ts, another ts = true) → bounds ≠ []) := by
  have rounds : ∀ count c, Yields (addedRounds another count) r c fun bounds _ => (∀ b ∈ bounds, b.Made)
      ∧ (Ahead.op ['+'] c.rest = true → (∀ ts, another ts = true) → bounds ≠ []) := by
    intro count
    induction count with
    | zero => exact fun _ => Yields.fail
    | succ count ih =>
        refine fun c => Yields.bind Yields.someOp fun plus c' found => ?_
        cases plus with
        | true =>
            refine Yields.ifAhead (fun _ => Yields.bind sound.bound fun b c'' first => ?_) fun no => ?_
            · refine Yields.bind (ih c'') fun more _ later => Yields.pure ?_
              exact ⟨List.forall_mem_cons.mpr ⟨first.1, later.1⟩, fun _ _ => List.cons_ne_nil b more⟩
            · exact Yields.pure ⟨by simp, fun _ every => absurd (every c'.rest) (by simp [no])⟩
        | false => exact Yields.pure ⟨by simp, fun seen => absurd seen (by simp [← found.1])⟩
  exact Yields.get (rounds _ c)

theorem yields_pathType (sound : Sound r) {sums : Bool} {binder : Option Binder} (front : Ahead.pathType c.rest = true)
    (bindable : binder.isSome = true → Ahead.anyIdent c.rest = true) :
    Yields (pathType sums binder) r c fun t _ => t.Made sums ∧ t.leadsLifetime = false := by
  refine Yields.bind (Yields.captured (V := fun found => PathLike c.rest found.1) fun c' same => ?_) fun found c' path => ?_
  · refine Yields.bind (yields_typePath sound) fun t c'' path => ?_
    rw [same] at path
    exact Yields.ifAhead (fun _ => Yields.step fun _ _ => Yields.step fun _ _ => Yields.pure path) fun _ => Yields.pure path
  · obtain ⟨⟨t, isMacro⟩, lexemes⟩ := found
    cases isMacro with
    | true => exact Yields.pure ⟨.verbatim, rfl⟩
    | false =>
        cases path with
        | @path rooted segments each heads unrooted =>
            have single : ∀ first, binder = some first →
                (Ty.object false [.trait false false binder rooted segments]).Made sums := by
              rintro first rfl
              obtain rfl := unrooted (bindable rfl)
              exact .boundTrait (heads front) each
            refine Yields.bind Yields.ahead ?_
            rintro more c'' ⟨seen, rfl⟩
            cases more with
            | false =>
                cases binder with
                | none => exact Yields.pure ⟨.path (heads front) each, rfl⟩
                | some first => exact Yields.pure ⟨single first rfl, rfl⟩
            | true =>
                obtain rfl : sums = true := by
                  cases sums with
                  | true => rfl
                  | false => cases seen
                have sum : Yields (do return Ty.object false (.trait false false binder rooted segments
                    :: (← addedBounds Ahead.bound))) r c'' fun t _ => t.Made true ∧ t.leadsLifetime = false := by
                  refine Yields.bind (yields_addedBounds sound) fun bounds _ made => Yields.pure ⟨?_, rfl⟩
                  match bounds, binder with
                  | [], none => exact .loneTrait (heads front) each
                  | [], some first => exact single first rfl
                  | next :: more, _ => exact .pathSum (heads front) each (fun on => unrooted (bindable on)) made.1
                cases binder <;> exact sum
        | projection made => exact Yields.pure ⟨made sums, rfl⟩

/-- A parameter, which has the receiver's name only if it is the first. -/
def InputFound (first : Bool) (i : Input) : Prop :=
  i.Made ∧ ∀ name t, i = .mk (some name) t → name.text = "self" → first = true

theorem name_of_inputName {first : Bool} {name : Ident} {rest : List TokenTree}
    (seen : Ahead.inputName first (.leaf (.ident name) :: rest) = true) :
    (name.Free ∨ name.text = "_" ∨ name.text = "self") ∧ (name.text = "self" → first = true) := by
  simp only [Ahead.inputName, Ahead.ident, Ahead.word, Bool.and_eq_true, Bool.or_eq_true, beq_iff_eq,
    Bool.not_eq_true'] at seen
  rcases seen.1.1 with (free | wild) | ⟨on, self⟩
  · have unreserved : name.text ∉ reserved := by simpa using free
    refine ⟨Or.inl unreserved, fun self => absurd ?_ unreserved⟩
    rw [self]
    decide
  · exact ⟨Or.inr (Or.inl wild), fun self => by simp [wild] at self⟩
  · exact ⟨Or.inr (Or.inr self), fun _ => on⟩

theorem yields_functionInput (sound : Sound r) {first : Bool} :
    Yields (functionInput first) r c fun i _ => InputFound first i := by
  refine Yields.step fun _ c₁ => ?_
  refine Yields.bind (Yields.asWrittenWhen (V := fun found => ∀ i, found = some i → InputFound first i) ?_)
    fun found _ made => ?_
  · -- What stands behind the name.
    have tail : ∀ (mutSelf : Bool) (name : Option Ident) c', (∀ own, name = some own →
        (own.Free ∨ own.text = "_" ∨ own.text = "self") ∧ (own.text = "self" → first = true)) → Yields (do
          if ← ahead fun t => first && name.map (·.text) != some "self" && Ahead.mutSelf t then
            takeWord "mut"
            takeWord "self"
            return none
          else if mutSelf && name.isNone then
            takeWord "self"
            return none
          else
            let ty ← nested (.ty true)
            return if mutSelf then none else some (Input.mk name ty)) r c' fun found _ =>
        ∀ i, found = some i → InputFound first i := by
      intro mutSelf name c' named
      have nothing : ∀ i, (none : Option Input) = some i → InputFound first i := fun i same => by cases same
      refine Yields.ifAhead (fun _ => Yields.step fun _ _ => Yields.step fun _ _ => Yields.pure nothing) fun _ => ?_
      split
      · exact Yields.step fun _ _ => Yields.pure nothing
      · refine Yields.bind (yields_type sound) fun t _ made => Yields.pure fun i same => ?_
        split at same
        · cases same
        · cases same
          cases name with
          | none => exact ⟨.unnamed made, fun _ _ same => by cases same⟩
          | some own =>
              refine ⟨.named (named own rfl).1 made, fun _ _ same self => ?_⟩
              cases same
              exact (named own rfl).2 self
    have naming : ∀ (mutSelf : Bool) c', Yields (do
          let name ←
            if ← ahead (Ahead.inputName first) then
              let name ← takeAnyIdent
              takeOp [':']
              pure (some name)
            else pure none
          if ← ahead fun t => first && name.map (·.text) != some "self" && Ahead.mutSelf t then
            takeWord "mut"
            takeWord "self"
            return none
          else if mutSelf && name.isNone then
            takeWord "self"
            return none
          else
            let ty ← nested (.ty true)
            return if mutSelf then none else some (Input.mk name ty)) r c' fun found _ =>
        ∀ i, found = some i → InputFound first i := by
      intro mutSelf c'
      refine Yields.ifAhead (fun seen => ?_) fun _ => ?_
      · refine Yields.bind Yields.anyIdent fun name c'' named => Yields.step fun _ c₃ => ?_
        obtain ⟨rest, same⟩ := named
        rw [same] at seen
        refine Yields.bind (P := fun found _ => found = some name) (Yields.pure rfl) ?_
        rintro _ c₄ rfl
        refine tail mutSelf (some name) c₄ fun own same => ?_
        cases same
        exact name_of_inputName seen
      · refine Yields.bind (P := fun found _ => found = none) (Yields.pure rfl) ?_
        rintro _ c₄ rfl
        exact tail mutSelf none c₄ fun own same => by cases same
    cases first with
    | true =>
        refine Yields.step fun mutSelf c' => ?_
        cases mutSelf with
        | true => exact Yields.step fun _ c'' => naming true c''
        | false => exact naming false c'
    | false =>
        refine Yields.bind (P := fun found _ => found = false) (Yields.pure rfl) ?_
        rintro _ c' rfl
        exact naming false c'
  · refine Yields.pure ?_
    cases same : found.1 with
    | none => exact ⟨.unnamed .verbatim, fun _ _ same => by cases same⟩
    | some i => exact made i same

theorem yields_functionInputs (sound : Sound r) (first : Bool) (count : Nat) :
    Yields (functionInputs first count) r c fun found _ => (∀ i ∈ found.1, i.Made)
      ∧ ∀ i ∈ (if first then found.1.tail else found.1), ∀ name t, i = .mk (some name) t → name.text ≠ "self" := by
  induction count generalizing c first with
  | zero => exact Yields.fail
  | succ count ih =>
      refine Yields.ifAhead (fun _ => Yields.pure ⟨by simp, by cases first <;> simp⟩) fun _ => ?_
      refine Yields.step fun _ c₁ => Yields.ifAhead (fun _ => ?_) fun _ => ?_
      · have none : (∀ i ∈ ([] : List Input), i.Made) ∧ ∀ i ∈ (if first then ([] : List Input).tail else []),
            ∀ name t, i = .mk (some name) t → name.text ≠ "self" := ⟨by simp, by cases first <;> simp⟩
        refine Yields.step fun dots c₂ => ?_
        cases dots with
        | true => exact Yields.step fun _ _ => Yields.step fun _ _ => Yields.pure none
        | false =>
            refine Yields.step fun _ _ => Yields.step fun _ _ => ?_
            exact Yields.step fun _ _ => Yields.step fun _ _ => Yields.pure none
      · refine Yields.bind (yields_functionInput sound) fun i c₂ made => ?_
        have apart : ∀ inputs : List Input, (∀ i ∈ inputs, ∀ name t, i = .mk (some name) t → name.text ≠ "self") →
            ∀ j ∈ (if first then (i :: inputs).tail else i :: inputs),
              ∀ name t, j = .mk (some name) t → name.text ≠ "self" := by
          intro inputs later
          cases first with
          | true => exact later
          | false =>
              refine List.forall_mem_cons.mpr ⟨fun name t same self => ?_, later⟩
              cases made.2 name t same self
        refine Yields.ifAhead (fun _ => Yields.pure ⟨List.forall_mem_singleton.mpr made.1, apart [] (by simp)⟩) fun _ => ?_
        refine Yields.step fun _ c₃ => Yields.bind (ih false) fun found _ later => Yields.pure ?_
        exact ⟨List.forall_mem_cons.mpr ⟨made.1, later.1⟩, apart found.1 later.2⟩

theorem yields_functionType (sound : Sound r) {sums : Bool} {binder : Option Binder} :
    Yields (functionType binder) r c fun t _ => t.Made sums ∧ t.leadsLifetime = false := by
  refine Yields.step fun isUnsafe _ => Yields.step fun abi _ => Yields.step fun _ c' => ?_
  refine Yields.bind (Yields.within fun c₁ => Yields.get (yields_functionInputs sound true _)) fun found _ made => ?_
  refine Yields.bind (yields_returnType sound) fun output _ result => Yields.pure ⟨?_, rfl⟩
  exact .function made.1 made.2 result

/-- What stands in parentheses. -/
def ParenthesizedMade : Parenthesized → Prop
  | .tuple elements => (∀ t ∈ elements, t.Made true)
      ∧ ∀ first, elements.head? = some first → first.leadsLifetime = false
  | .single inner => inner.Made true
  | .firstBound b => TraitFound true b true

theorem yields_parenthesized (sound : Sound r) : Yields parenthesized r c fun found _ => ParenthesizedMade found := by
  refine Yields.ifAhead (fun _ => Yields.pure ⟨by simp, by simp⟩) fun _ => Yields.ifAhead (fun _ => ?_) fun other => ?_
  · exact Yields.bind (yields_type sound) fun t _ made => Yields.pure made
  · refine Yields.ifAhead (fun mark => ?_) fun _ => ?_
    · refine Yields.bind (yields_relaxed sound mark) fun found _ made => ?_
      cases found with
      | none => exact Yields.fail
      | some b => exact Yields.pure (made b rfl)
    · refine Yields.bind sound.ty fun first _ made => Yields.step fun comma c' => ?_
      cases comma with
      | true =>
          refine Yields.bind (Yields.commaList fun _ => yields_type sound) fun more _ each => Yields.pure ?_
          refine ⟨List.forall_mem_cons.mpr ⟨made.1, each⟩, fun t same => ?_⟩
          cases same
          rw [Bool.eq_false_iff]
          exact fun leads => absurd (made.2 leads) (by simp [other])
      | false => exact Yields.pure made.1

/-- What in parentheses may be the first bound of a sum. -/
theorem sum_of_parenBound {inner : Ty} (made : inner.Made true) {first : Bound} (bound : parenBound? inner = some first)
    {more : List Bound} (some : more ≠ []) (each : ∀ b ∈ more, b.Made) :
    (Ty.object false (first :: more)).Made true ∧ (Ty.object false (first :: more)).leadsLifetime = false := by
  obtain ⟨next, more, rfl⟩ := List.exists_cons_of_ne_nil some
  cases made with
  | path heads own =>
      cases bound
      exact ⟨.parenSum heads own (fun on => by cases on) each, rfl⟩
  | boundTrait heads own =>
      cases bound
      exact ⟨.parenSum heads own (fun _ => rfl) each, rfl⟩
  | loneTrait heads own =>
      cases bound
      exact ⟨.parenSum heads own (fun on => by cases on) each, rfl⟩
  | @relaxedSum _ rooted segments others own _ =>
      cases others with
      | nil =>
          cases bound
          exact ⟨.relaxedSum own each, rfl⟩
      | cons other others => cases bound
  | @lifetimeSum _ l others _ names =>
      cases others with
      | nil => cases names
      | cons other others => cases bound
  | pathSum => cases bound
  | parenSum => cases bound
  | dyn => cases bound
  | _ => cases bound

theorem yields_parenType (sound : Sound r) {sums : Bool} :
    Yields (parenType sums) r c fun t _ => t.Made sums ∧ t.leadsLifetime = false := by
  refine Yields.bind (Yields.within fun _ => yields_parenthesized sound) fun found c' made => ?_
  cases found with
  | tuple elements => exact Yields.pure ⟨.tuple made.1 made.2, rfl⟩
  | firstBound first =>
      refine Yields.bind (yields_addedBounds sound) fun more _ each => Yields.pure ?_
      obtain ⟨own, binder, rooted, segments, rfl⟩ := made
      have unbound : binder = none := by
        cases own with
        | trait _ _ unrelaxed => exact unrelaxed rfl
        | call _ _ _ _ unrelaxed => exact unrelaxed rfl
      subst unbound
      exact ⟨.relaxedSum own each.1, rfl⟩
  | single inner =>
      dsimp only
      split
      · rename_i first bound
        refine Yields.ifAhead (fun seen => ?_) fun _ => Yields.pure ⟨.paren made, rfl⟩
        obtain ⟨rfl, plus⟩ : sums = true ∧ Ahead.op ['+'] c'.rest = true := by simpa using seen
        refine Yields.bind (yields_addedBounds sound) fun more _ each => Yields.pure ?_
        exact sum_of_parenBound made bound (each.2 plus fun _ => rfl) each.1
      · exact Yields.pure ⟨.paren made, rfl⟩

theorem yields_objectBounds (sound : Sound r) {place : Place} {sums : Bool} :
    Yields (objectBounds place sums) r c fun bounds _ => ((∀ b ∈ bounds, b.Made) ∧ (sums = false → bounds.length = 1)
      ∧ (Ahead.lifetime c.rest = true → ∃ l more, bounds = .lifetime l :: more)) ∧ namesTrait bounds = true := by
  refine Yields.bind (yields_boundSum sound) fun bounds _ made => ?_
  split
  · rename_i names
    exact Yields.pure ⟨made, names⟩
  · exact Yields.refuse

theorem yields_implType (sound : Sound r) {sums : Bool} :
    Yields (implType sums) r c fun t _ => t.Made sums ∧ t.leadsLifetime = false := by
  refine Yields.get (Yields.step fun _ _ => Yields.bind (yields_boundSum sound) fun bounds _ made => ?_)
  split
  · exact Yields.refuse
  · rename_i names
    exact Yields.pure ⟨.opaqueImpl made.1 (by simpa using names) made.2.1, rfl⟩

theorem ident_of_bindable {ts : List TokenTree} (front : Ahead.bindable ts = true) : Ahead.anyIdent ts = true := by
  revert front
  cases ts with
  | nil => exact fun front => by cases front
  | cons first rest => cases first with
    | leaf lexeme => cases lexeme <;> intro front <;> first | rfl | cases front
    | group d inside => exact fun front => by cases front

theorem no_lifetime_of_ident {ts : List TokenTree} (front : Ahead.anyIdent ts = true) : Ahead.lifetime ts = false := by
  revert front
  cases ts with
  | nil => exact fun front => by cases front
  | cons first rest => cases first with
    | leaf lexeme => cases lexeme <;> intro front <;> first | rfl | cases front
    | group d inside => exact fun front => by cases front

/-- A slice or an array inside its brackets. -/
def bracketType : Parser Ty := do
  let element ← nested (.ty true)
  if ← takeOp? [';'] then
    let (_, length) ← captured (nested (.expr true))
    return .array element length
  else return .slice element

theorem yields_typeOf (sound : Sound r) {sums : Bool} : Yields (typeOf sums) r c fun t _ =>
    t.Made sums ∧ (t.leadsLifetime = true → Ahead.lifetime c.rest = true) := by
  have plain : ∀ t : Ty, t.Made sums ∧ t.leadsLifetime = false →
      t.Made sums ∧ (t.leadsLifetime = true → Ahead.lifetime c.rest = true) :=
    fun t made => ⟨made.1, fun leads => by rw [made.2] at leads; cases leads⟩
  refine Yields.bind yields_binder fun binder c₁ opened => Yields.bind Yields.ahead ?_
  rintro can c₂ ⟨seen, rfl⟩
  refine Yields.ite (fun _ => Yields.bind (P := fun _ _ => False) Yields.fail fun _ _ no => no.elim) fun kept => ?_
  have bindable : binder.isSome = true → Ahead.anyIdent c₂.rest = true := by
    intro on
    rw [on, seen] at kept
    exact ident_of_bindable (by simpa using kept)
  refine Yields.ifAhead (fun _ => (yields_parenType sound).mono fun t _ => plain t) fun _ => ?_
  refine Yields.ifAhead (fun _ => (yields_functionType sound).mono fun t _ => plain t) fun _ => ?_
  refine Yields.ifAhead (fun front => (yields_pathType sound front bindable).mono fun t _ => plain t) fun _ => ?_
  refine Yields.ifAhead (fun _ => Yields.get ?_) fun _ => ?_
  · -- The word `dyn`.
    refine Yields.bind (Yields.asWrittenWhen (V := fun found : List Bound × Bool => (∀ b ∈ found.1, b.Made)
      ∧ (sums = false → found.1.length = 1) ∧ namesTrait found.1 = true) ?_) fun found _ made => ?_
    · refine Yields.step fun _ _ => Yields.step fun starred _ => ?_
      exact Yields.bind (yields_objectBounds sound) fun bounds _ made => Yields.pure ⟨made.1.1, made.1.2.1, made.2⟩
    obtain ⟨⟨bounds, starred⟩, lexemes⟩ := found
    cases starred with
    | true => exact Yields.pure (plain _ ⟨.verbatim, rfl⟩)
    | false => exact Yields.pure (plain _ ⟨.dyn made.1 made.2.2 made.2.1, rfl⟩)
  refine Yields.ifAhead (fun _ => ?_) fun _ => ?_
  · -- A slice or an array.
    have inside : ∀ c₃, Yields bracketType r c₃ fun t _ => t.Made sums ∧ t.leadsLifetime = false := by
      refine fun c₃ => Yields.bind (yields_type sound) fun t _ made => Yields.step fun sized _ => ?_
      cases sized with
      | true => exact Yields.step fun _ _ => Yields.pure ⟨.array, rfl⟩
      | false => exact Yields.pure ⟨.slice made, rfl⟩
    exact (Yields.within inside).mono fun t _ => plain t
  refine Yields.bind Yields.someOp fun star c₃ starred => ?_
  cases star with
  | true =>
      refine Yields.step fun isConst c₄ => ?_
      cases isConst with
      | true => exact Yields.bind (yields_type sound) fun t _ made => Yields.pure (plain _ ⟨.pointer made, rfl⟩)
      | false =>
          refine Yields.step fun isMut c₅ => ?_
          cases isMut with
          | true => exact Yields.bind (yields_type sound) fun t _ made => Yields.pure (plain _ ⟨.pointer made, rfl⟩)
          | false => exact Yields.fail
  | false =>
  obtain rfl := starred.2 rfl
  refine Yields.bind Yields.someOp fun ampersand c₄ referred => ?_
  cases ampersand with
  | true =>
      refine Yields.bind Yields.someLifetime fun l c₅ noLifetime => ?_
      refine Yields.bind Yields.someWord fun isMut c₆ changed => ?_
      refine Yields.bind sound.ty fun t _ made => Yields.pure (plain _ ⟨.reference made.1 fun none unchanged => ?_, rfl⟩)
      obtain ⟨other, rfl⟩ := noLifetime none
      obtain rfl := changed.2 unchanged
      rw [Bool.eq_false_iff]
      exact fun leads => absurd (made.2 leads) (by simp [other])
  | false =>
  obtain rfl := referred.2 rfl
  refine Yields.bind Yields.someOp fun exclaimed c₅ never => ?_
  cases exclaimed with
  | true => exact Yields.pure (plain _ ⟨.never, rfl⟩)
  | false =>
  obtain rfl := never.2 rfl
  refine Yields.ifAhead (fun _ => (yields_implType sound).mono fun t _ => plain t) fun _ => ?_
  refine Yields.bind Yields.someWord fun wild c₆ infer => ?_
  cases wild with
  | true => exact Yields.pure (plain _ ⟨.infer, rfl⟩)
  | false =>
  obtain rfl := infer.2 rfl
  refine Yields.ifAhead (fun front => Yields.get ?_) fun _ => Yields.fail
  refine Yields.bind (yields_objectBounds sound) fun bounds _ made => Yields.pure ?_
  obtain ⟨l, more, rfl⟩ := made.1.2.2 front
  have unbound : binder = none := by
    cases binder with
    | none => rfl
    | some params => exact absurd front (by simp [no_lifetime_of_ident (bindable rfl)])
  obtain rfl := opened.2 unbound
  refine ⟨.lifetimeSum (fun b member => made.1.1 b (List.mem_cons_of_mem _ member)) ?_, fun _ => front⟩
  simpa [namesTrait] using made.2

/-! The levels. -/

theorem sound_rules (n : Nat) : Sound (rules n) := by
  induction n with
  | zero =>
      constructor
      · intro sums c t c' ran
        cases ran
      · intro captures consts c b c' ran
        cases ran
      · intro c args c' ran
        cases ran
  | succ n ih =>
      constructor
      · exact fun t c' ran => yields_typeOf ih t c' ran
      · exact fun b c' ran => yields_bound ih b c' ran
      · exact fun args c' ran => yields_angleArgs ih args c' ran

/-- A type that was read from a text has the described form. -/
theorem made_of_typeText {text : String} {t : Ty} (parsed : typeText text = .ok t) : t.Made true :=
  holds_of_parse (fun n _ => yields_type (sound_rules n)) parsed

end Parsing

end Accessors
