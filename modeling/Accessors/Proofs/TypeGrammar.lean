import Accessors.Parsing.Types

/-!
The types that the grammar yields. Not every tree is one: a path has segments, parenthesized arguments end the
path of a trait, a sum of bounds stands only where one is allowed, and a name is no reserved word. What is kept as
it was written is not described here.
-/

namespace Accessors

open Parsing (reserved)

namespace Ident

/-- A name that is no reserved word. -/
def Free (name : Ident) : Prop := name.text ∉ reserved

/-- What may begin a path where a type stands. -/
def Heads (name : Ident) : Prop := name.Free ∨ name.text ∈ ["super", "self", "Self", "crate"]

/-- What may be a segment. -/
def Names (name : Ident) : Prop := name.Heads ∨ name.text = "try"

/-- What may have arguments in angle brackets. -/
def TakesArgs (name : Ident) : Prop := name.Free ∨ name.text = "Self"

end Ident

/-- Whether a type begins with a lifetime, as a sum of bounds may. -/
def Ty.leadsLifetime : Ty → Bool
  | .object false (.lifetime _ :: _) => true
  | _ => false

/-- The first segment of a path where a type stands. -/
def HeadsPath (rooted : Bool) (segments : List Segment) : Prop :=
  segments ≠ [] ∧ (rooted = false → ∀ first, segments.head? = some first → first.name.Heads)

mutual

/-- A type that the grammar yields; the flag allows a sum of bounds. -/
inductive Ty.Made : Bool → Ty → Prop where
  | path {sums rooted segments} : HeadsPath rooted segments → (∀ s ∈ segments, Segment.Made s) →
      Ty.Made sums (.path rooted segments)
  | projection {sums subject traitRooted traitPath rest} : Ty.Made true subject →
      (∀ s ∈ traitPath, Segment.Made s) → rest ≠ [] → (∀ s ∈ rest, Segment.Made s) →
      Ty.Made sums (.projection subject traitRooted traitPath rest)
  | reference {sums l isMut target} : Ty.Made false target →
      (l = none → isMut = false → target.leadsLifetime = false) → Ty.Made sums (.reference l isMut target)
  | pointer {sums isMut target} : Ty.Made false target → Ty.Made sums (.pointer isMut target)
  | slice {sums element} : Ty.Made true element → Ty.Made sums (.slice element)
  | array {sums element length} : Ty.Made sums (.array element length)
  | tuple {sums elements} : (∀ t ∈ elements, Ty.Made true t) →
      (∀ first, elements.head? = some first → first.leadsLifetime = false) → Ty.Made sums (.tuple elements)
  | paren {sums inner} : Ty.Made true inner → Ty.Made sums (.paren inner)
  | never {sums} : Ty.Made sums .never
  | infer {sums} : Ty.Made sums .infer
  /-- A trait object after the word `dyn`. -/
  | dyn {sums bounds} : (∀ b ∈ bounds, Bound.Made b) → Parsing.namesTrait bounds = true →
      (sums = false → bounds.length = 1) → Ty.Made sums (.object true bounds)
  | opaqueImpl {sums bounds} : (∀ b ∈ bounds, Bound.Made b) →
      bounds.all Parsing.Bound.namesNone = false → (sums = false → bounds.length = 1) →
      Ty.Made sums (.opaqueImpl bounds)
  /-- A trait with a binder. -/
  | boundTrait {sums binder segments} : HeadsPath false segments → (∀ s ∈ segments, Segment.Made s) →
      Ty.Made sums (.object false [.trait false false (some binder) false segments])
  /-- A trait that a plus sign without another bound makes a trait object. -/
  | loneTrait {sums rooted segments} : HeadsPath rooted segments → (∀ s ∈ segments, Segment.Made s) →
      Ty.Made sums (.object false [.trait false false none rooted segments])
  /-- A sum that begins with a trait. -/
  | pathSum {binder rooted segments next more} : HeadsPath rooted segments → (∀ s ∈ segments, Segment.Made s) →
      (binder.isSome = true → rooted = false) → (∀ b ∈ next :: more, Bound.Made b) →
      Ty.Made true (.object false (.trait false false binder rooted segments :: next :: more))
  /-- A sum that begins with a trait in parentheses. -/
  | parenSum {binder rooted segments next more} : HeadsPath rooted segments → (∀ s ∈ segments, Segment.Made s) →
      (binder.isSome = true → rooted = false) → (∀ b ∈ next :: more, Bound.Made b) →
      Ty.Made true (.object false (.trait true false binder rooted segments :: next :: more))
  /-- A sum that begins with a relaxed trait in parentheses. It may stand everywhere. -/
  | relaxedSum {sums rooted segments more} : Bound.Made (.trait true true none rooted segments) →
      (∀ b ∈ more, Bound.Made b) → Ty.Made sums (.object false (.trait true true none rooted segments :: more))
  /-- A sum that begins with a lifetime. It may stand everywhere. -/
  | lifetimeSum {sums l more} : (∀ b ∈ more, Bound.Made b) → Parsing.namesTrait more = true →
      Ty.Made sums (.object false (.lifetime l :: more))
  /-- A function pointer. Only the first parameter may have the name of a receiver. -/
  | function {sums binder isUnsafe abi inputs variadic output} : (∀ i ∈ inputs, Input.Made i) →
      (∀ i ∈ inputs.tail, ∀ name t, i = .mk (some name) t → name.text ≠ "self") →
      (∀ t, output = some t → Ty.Made false t) →
      Ty.Made sums (.function binder isUnsafe abi inputs variadic output)
  | verbatim {sums lexemes} : Ty.Made sums (.verbatim lexemes)

/-- A segment without parenthesized arguments. -/
inductive Segment.Made : Segment → Prop where
  | plain {name} : name.Names → Segment.Made (.plain name)
  | angle {name turbofish args} : name.TakesArgs → (∀ a ∈ args, GenericArg.Made a) →
      Segment.Made (.angle name turbofish args)

inductive GenericArg.Made : GenericArg → Prop where
  | lifetime {l} : GenericArg.Made (.lifetime l)
  | type {t} : Ty.Made true t → GenericArg.Made (.type t)
  | const {lexemes} : GenericArg.Made (.const lexemes)
  | binding {name t} : name.Heads → Ty.Made true t → GenericArg.Made (.binding name none t)
  | bindingArgs {name args t} : name.TakesArgs → (∀ a ∈ args, GenericArg.Made a) → Ty.Made true t →
      GenericArg.Made (.binding name (some args) t)
  | constraint {name args bounds} : name.Heads → (∀ b ∈ bounds, Bound.Made b) →
      GenericArg.Made (.constraint name args bounds)

inductive Bound.Made : Bound → Prop where
  | lifetime {l} : Bound.Made (.lifetime l)
  | verbatim {lexemes} : Bound.Made (.verbatim lexemes)
  | trait {inParens relaxed binder rooted segments} : segments ≠ [] → (∀ s ∈ segments, Segment.Made s) →
      (relaxed = true → binder = none) → Bound.Made (.trait inParens relaxed binder rooted segments)
  | call {inParens relaxed binder rooted front name inputs output} : (∀ s ∈ front, Segment.Made s) → name.Names →
      (∀ t ∈ inputs, Ty.Made true t) → (∀ t, output = some t → Ty.Made false t) →
      (relaxed = true → binder = none) →
      Bound.Made (.trait inParens relaxed binder rooted (front ++ [.call name inputs output]))

inductive Input.Made : Input → Prop where
  | unnamed {t} : Ty.Made true t → Input.Made (.mk none t)
  | named {name t} : name.Free ∨ name.text = "_" ∨ name.text = "self" → Ty.Made true t → Input.Made (.mk (some name) t)

end

/-- A name alone is a type. -/
theorem Ty.Made.named {name : Ident} (heads : name.Heads) {sums : Bool} : Ty.Made sums (.path false [.plain name]) :=
  .path ⟨List.cons_ne_nil _ _, fun _ first same => by cases same; exact heads⟩
    (List.forall_mem_singleton.mpr (.plain (Or.inl heads)))

end Accessors
