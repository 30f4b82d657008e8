import Accessors.Parsing.Source
import Accessors.Proofs.BorderedTypes

/-!
The head of an implementation. What stands before the block of an implementation is read the same whatever the
block holds.
-/

namespace Accessors.Parsing

namespace Border

variable {s : Border}

/-- The end of a group and a pair of braces both end a `where` clause. -/
theorem blind_whereEnd : s.Blind Ahead.whereEnd := by
  have ends : s.Blind fun t => Ahead.atEnd t || Ahead.opens .brace t := by
    refine Blind.of_brace fun inside more far ts => ?_
    cases ts with
    | nil => rcases s.near_end with near | ⟨inside', near⟩ <;> rw [near, far] <;> rfl
    | cons t ts => cases t <;> rfl
  exact ((((ends.or (blind_op [','])).or (blind_op [';'])).or ((blind_op [':']).and (blind_op [':', ':']).not)).or (blind_op ['=']))

theorem blind_brace (braced : s.near ≠ []) : s.Blind (Ahead.opens .brace) := by
  refine Blind.of_brace fun inside more far ts => ?_
  cases ts with
  | nil =>
      rcases s.near_end with near | ⟨inside', near⟩
      · exact absurd near braced
      · rw [near, far]
        rfl
  | cons t ts => cases t <;> rfl

theorem blind_implGenerics : s.Blind Ahead.implGenerics := by
  have third : s.Blind fun t => Ahead.op ['>'] t || Ahead.op [','] t || (Ahead.op [':'] t && !Ahead.colons t) || Ahead.op ['='] t :=
    ((((blind_op ['>']).or (blind_op [','])).or ((blind_op [':']).and (blind_op [':', ':']).not)).or (blind_op ['=']))
  have closed : (Ahead.lifetime s.near || Ahead.ident s.near) = false := by
    rcases s.near_end with near | ⟨inside, near⟩ <;> rw [near] <;> rfl
  have named := (blind_lifetime.or blind_ident).next closed third
  exact (blind_op ['<']).next (s.false_at_near rfl fun _ => rfl)
    ((((blind_op ['>']).or (blind_op ['#'])).or named).or (blind_word "const"))

end Border

namespace Carrying

variable {s : Border} {r : Rules} {c : Cursor}

theorem genericParams (carrying : Carrying s r) : Kept s genericParams r c := by
  refine Carries.bind (Carries.someOp _) fun opened _ => ?_
  cases opened with
  | false => exact Carries.pure []
  | true =>
      refine Carries.bind (Carries.listUntil (s.blind_op _) (fun _ => ?_) fun _ => Carries.op _) fun _ _ =>
        Carries.bind (Carries.op _) fun _ _ => Carries.pure _
      refine Carries.bind attributes fun _ _ => Carries.ifAhead (s.blind_word _) (fun _ => ?_) fun _ => carrying.genericParam
      exact Carries.bind Carries.anyIdent fun _ _ => Carries.pure _

theorem wherePredicate (carrying : Carrying s r) : Kept s wherePredicate r c := by
  refine Carries.ifAhead (s.blind_lifetime.next (s.false_at_near rfl fun _ => rfl) (s.blind_op _)) (fun _ => ?_) fun _ => ?_
  · refine Carries.bind Carries.takeLifetime fun name _ => Carries.bind (Carries.op _) fun _ _ => ?_
    exact Carries.bind (Carries.chainUntil s.blind_whereEnd fun _ => Carries.takeLifetime) fun _ _ => Carries.pure _
  · refine Carries.bind carrying.binder fun binder _ => Carries.bind carrying.ty fun subject _ => ?_
    refine Carries.bind (Carries.op _) fun _ _ => ?_
    exact Carries.bind (Carries.chainUntil s.blind_whereEnd fun _ => carrying.bound) fun _ _ => Carries.pure _

theorem whereClause (carrying : Carrying s r) : Kept s whereClause r c := by
  refine Carries.bind (Carries.someWord _) fun clause _ => ?_
  cases clause with
  | true => exact Carries.chainUntil s.blind_whereEnd fun _ => carrying.wherePredicate
  | false => exact Carries.pure []

end Carrying

/-- What reads an implementation up to the end of its block reads what stands before the block, and then the block: in
front of another block it reads the same, and then that block. -/
def Leads (p q : Parser ImplDecl) (r : Rules) (c : Cursor) : Prop :=
  ∀ decl c', p.run r c = some (.ok (decl, c')) → c'.rest = [] → c'.stray = none →
    ∃ ts inside, c.rest = ts ++ [.group .brace inside] ∧ c.stray = none ∧ ∀ deep : Rules, deep.Extends r →
      ∀ (inside' after : List TokenTree) (under : List Lexeme), ∃ read,
        q.run deep ⟨ts ++ .group .brace inside' :: after, none, c.read ++ under⟩
        = Parser.andThen ((members implMember).run deep ⟨.group .brace inside' :: after, none, read⟩)
            fun functions c'' => some (.ok ({ decl with functions := functions.filterMap id }, c''))

namespace Leads

variable {α : Type} {r : Rules} {c : Cursor} {p q : Parser α} {next next' : α → Parser ImplDecl}

theorem bind (first : ∀ s : Border, s.near ≠ [] → Carries s p q r c) (second : ∀ a c', Leads (next a) (next' a) r c') :
    Leads (p >>= next) (q >>= next') r c := by
  intro decl c'' ran ended clean
  rw [run_bind] at ran
  cases found : p.run r c with
  | none => rw [found] at ran; cases ran
  | some answer =>
      rw [found] at ran
      match answer, ran with
      | .error place, ran => cases ran
      | .ok (a, c'), ran =>
          obtain ⟨ts', inside, own', clean', rest⟩ := second a c' decl c'' ran ended clean
          -- the border is the block that was read
          have carried : ∀ inside' after under, ∃ ts, c.rest = ts ++ [.group .brace inside] ∧ c.stray = none
              ∧ q.run r ⟨ts ++ .group .brace inside' :: after, none, c.read ++ under⟩
                = some (.ok (a, ⟨ts' ++ .group .brace inside' :: after, none, c'.read ++ under⟩)) := by
            intro inside' after under
            obtain ⟨before, step⟩ := first ⟨[.group .brace inside], .group .brace inside' :: after, Or.inr ⟨inside, rfl⟩,
              Or.inr ⟨inside', after, rfl⟩⟩ (List.cons_ne_nil _ _) a c' found ⟨⟨ts', own'.symm⟩, clean'⟩
            have step := step under
            obtain ⟨ts, own⟩ := before.1
            refine ⟨ts, own.symm, before.2, ?_⟩
            rw [Border.move_of_append own.symm, Border.move_of_append own', before.2, clean'] at step
            exact step
          obtain ⟨ts, own, clean₀, -⟩ := carried [] [] []
          refine ⟨ts, inside, own, clean₀, fun deep further inside' after under => ?_⟩
          obtain ⟨read, later⟩ := rest deep further inside' after under
          obtain ⟨ts₁, own₁, -, step⟩ := carried inside' after under
          obtain rfl : ts₁ = ts := List.append_cancel_right (own₁.symm.trans own)
          refine ⟨read, ?_⟩
          rw [run_bind, q.stable further _ _ step]
          exact later

theorem get {next next' : Cursor → Parser ImplDecl} (second : ∀ c₀, Leads (next c) (next' c₀) r c) :
    Leads (MonadState.get >>= next) (MonadState.get >>= next') r c := by
  intro decl c' ran ended clean
  obtain ⟨ts, inside, own, clean₀, -⟩ := second c decl c' ran ended clean
  refine ⟨ts, inside, own, clean₀, fun deep further inside' after under => ?_⟩
  obtain ⟨ts₁, inside₁, own₁, -, rest⟩ :=
    second ⟨ts ++ .group .brace inside' :: after, none, c.read ++ under⟩ decl c' ran ended clean
  obtain rfl : ts₁ = ts := by
    have same := own₁.symm.trans own
    exact (List.append_inj' same rfl).1
  exact rest deep further inside' after under

theorem block {generics : Generics} {trait : Option Ty} {target : Ty} : Leads
    (do return ⟨generics, trait, target, (← members implMember).filterMap id⟩)
    (do return ⟨generics, trait, target, (← members implMember).filterMap id⟩) r c := by
  intro decl c' ran ended clean
  rw [run_bind] at ran
  cases found : (members implMember).run r c with
  | none => rw [found] at ran; cases ran
  | some answer =>
      rw [found] at ran
      match answer, ran with
      | .error place, ran => cases ran
      | .ok (functions, c₁), ran =>
          cases ran
          obtain ⟨inside, after, inner, own, -, rfl⟩ := Yields.group functions _ found
          obtain rfl : after = [] := ended
          have clean := (Option.or_eq_none_iff.mp clean).1
          refine ⟨[], inside, own, clean, fun deep further inside' after under => ⟨c.read ++ under, ?_⟩⟩
          rfl

end Leads

/-! An implementation from its `where` clause on, from its types on, from an exclamation mark on, and behind its
parameters. -/

def implClause (params : List GenericParam) (first : Ty) (second : Option Ty) : Parser ImplDecl := do
  let predicates ← whereClause
  let functions ← members implMember
  let generics : Generics := ⟨params, predicates⟩
  match second with
  | some target => return ⟨generics, some first, target, functions.filterMap id⟩
  | none => return ⟨generics, none, first, functions.filterMap id⟩

def implTypes (params : List GenericParam) (negative : Bool) (place : Place) : Parser ImplDecl := do
  let first ← nested (.ty true)
  let second ← if ← takeWord? "for" then some <$> nested (.ty true) else pure none
  if negative && second.isNone then refuse place
  implClause params first second

def implSign (params : List GenericParam) : Parser ImplDecl := do
  let place := (← get).place
  let negative ←
    if ← ahead fun t => Ahead.op ['!'] t && !Ahead.opens .brace (Ahead.next t) then takeOp? ['!']
    else pure false
  implTypes params negative place

def implTail (params : List GenericParam) : Parser ImplDecl := do
  if ← ahead fun t => Ahead.word "const" t
      || (Ahead.op ['?'] t && Ahead.word "const" (Ahead.next t)) then
    let _ ← takeOp? ['?']
    takeWord "const"
  implSign params

section

variable {n : Nat} (params : List GenericParam)

theorem implClause_leads (first : Ty) (second : Option Ty) (c : Cursor) :
    Leads (implClause params first second) (implClause params first second) (rules n) c := by
  refine Leads.bind (fun s _ => (rules_carrying s n).whereClause) fun predicates c' => ?_
  cases second <;> exact Leads.block

theorem implTypes_leads (negative : Bool) (place place' : Place) (c : Cursor) :
    Leads (implTypes params negative place) (implTypes params negative place') (rules n) c := by
  have types : ∀ (first : Ty) (second : Option Ty) c', Leads (do
      if negative && second.isNone then refuse place
      implClause params first second) (do
      if negative && second.isNone then refuse place'
      implClause params first second) (rules n) c' := by
    intro first second c'
    dsimp only
    split
    · exact fun decl c' ran => by cases ran
    · exact implClause_leads params first second c'
  refine Leads.bind (fun s _ => (rules_carrying s n).ty) fun first c₁ => Leads.bind (fun _ _ => Carries.someWord _) fun trait c₂ => ?_
  cases trait with
  | true =>
      refine Leads.bind (fun s _ => ?_) (types first)
      exact Carries.bind (rules_carrying s n).ty fun _ _ => Carries.pure _
  | false => exact Leads.bind (fun _ _ => Carries.pure _) (types first)

theorem implSign_leads (c : Cursor) : Leads (implSign params) (implSign params) (rules n) c := by
  refine Leads.get fun c₀ => Leads.bind (fun s braced => Carries.ahead ?_) fun negative c₁ => ?_
  · exact (s.blind_op _).next (s.false_at_near rfl fun _ => rfl) (s.blind_brace braced).not
  · cases negative with
    | true => exact Leads.bind (fun _ _ => Carries.someOp _) fun _ _ => implTypes_leads params _ _ _ _
    | false => exact Leads.bind (fun _ _ => Carries.pure _) fun _ _ => implTypes_leads params _ _ _ _

theorem implTail_leads (c : Cursor) : Leads (implTail params) (implTail params) (rules n) c := by
  refine Leads.bind (fun s _ => Carries.ahead ?_) fun isConst c₁ => ?_
  · exact (s.blind_word _).or ((s.blind_op _).next (s.false_at_near rfl fun _ => rfl) (s.blind_word _))
  · cases isConst with
    | true =>
        refine Leads.bind (fun _ _ => Carries.someOp _) fun _ _ => Leads.bind (fun _ _ => Carries.word _) fun _ _ => ?_
        exact implSign_leads params _
    | false => exact implSign_leads params _

end

theorem implItem_leads (n : Nat) (c : Cursor) : Leads implItem implItem (rules n) c := by
  refine Leads.bind (fun _ _ => Carries.someWord _) fun _ _ => Leads.bind (fun _ _ => Carries.someWord _) fun _ _ => ?_
  refine Leads.bind (fun _ _ => Carries.word _) fun _ _ => ?_
  refine Leads.bind (fun s _ => Carries.ahead s.blind_implGenerics) fun generic c₁ => ?_
  cases generic with
  | true => exact Leads.bind (fun s _ => (rules_carrying s n).genericParams) implTail_leads
  | false => exact Leads.bind (fun _ _ => Carries.pure _) implTail_leads

end Accessors.Parsing
