import Accessors.Proofs.ErasedTypes
import Accessors.Proofs.GenericsRead
import Accessors.Proofs.ReadBack

/-!
The header that is generated for a struct, read back. What is read is an implementation with the generics of the
struct without what their writing drops, for the name with their parameters as arguments; so it has the generics of
the struct just if nothing is dropped.
-/

namespace Accessors

/-! Generics without what their writing drops. -/

def GenericParam.erased : GenericParam → GenericParam
  | .lifetime l bounds => .lifetime l bounds
  | .type name bounds => .type name (erasedBounds bounds)
  | .const name t => .const name t.erased

def WherePredicate.erased : WherePredicate → WherePredicate
  | .lifetime l bounds => .lifetime l bounds
  | .type binder subject bounds => .type binder subject.erased (erasedBounds bounds)

def Generics.erased (g : Generics) : Generics :=
  ⟨g.params.map GenericParam.erased, g.predicates.map WherePredicate.erased⟩

@[simp] theorem Ty.leads_binder_erased (t : Ty) : t.erased.leadsBinder = t.leadsBinder := by
  cases t with
  | object isDyn bounds =>
      match isDyn, bounds with
      | true, _ => rfl
      | false, [] => rfl
      | false, .lifetime _ :: _ => rfl
      | false, .trait true _ _ _ _ :: _ => rfl
      | false, .trait false true _ _ _ :: _ => rfl
      | false, .trait false false none _ _ :: _ => rfl
      | false, .trait false false (some _) _ _ :: _ => rfl
      | false, .verbatim _ :: _ => rfl
  | function binder isUnsafe abi inputs variadic output => cases binder <;> rfl
  | _ => rfl

theorem GenericParam.Made.erased {p : GenericParam} (made : p.Made) : p.erased.Made := by
  cases made with
  | lifetime => exact .lifetime
  | type name each => exact .type name (forall_erased_bounds.mpr fun b member => (each b member).erased)
  | const free inner => exact .const free inner.erased

theorem WherePredicate.Made.erased {p : WherePredicate} (made : p.Made) : p.erased.Made := by
  cases made with
  | lifetime => exact .lifetime
  | type subject unled each =>
      refine .type subject.erased (fun none => ?_) (forall_erased_bounds.mpr fun b member => (each b member).erased)
      rw [Ty.leads_binder_erased]
      exact unled none

theorem Generics.Made.erased {g : Generics} (made : g.Made) : g.erased.Made where
  params := List.forall_mem_map.mpr fun p member => (made.params p member).erased
  predicates := List.forall_mem_map.mpr fun p member => (made.predicates p member).erased

/-! Their texts stay the same. -/

namespace Signature

variable {imports : ImportMap}

theorem written_bounded (subject : String) (elements : List (List Part)) :
    written imports (bounded subject elements)
      = if elements.isEmpty then subject else subject ++ ": " ++ Text.join " + " (elements.map (written imports)) := by
  unfold bounded
  split <;> simp [String.append_assoc]

theorem written_angled (elements : List (List Part)) :
    written imports (angled elements)
      = if elements.isEmpty then "" else "<" ++ Text.join ", " (elements.map (written imports)) ++ ">" := by
  unfold angled
  split <;> simp [String.append_assoc]

theorem written_erased_param (p : GenericParam) : written imports (param p.erased) = written imports (param p) := by
  cases p with
  | lifetime l bounds => rfl
  | type name bounds =>
      have each : (erasedBounds bounds).map (fun b => written imports (bound b))
          = bounds.map fun b => written imports (bound b) :=
        written_erased_bounds bounds
      simp only [GenericParam.erased, param, written_bounded, bound_list_eq, List.map_map, List.isEmpty_map,
        Function.comp_def, each]
      rw [erased_bounds_eq, List.isEmpty_map]
  | const name t => simp [GenericParam.erased, param, written_erased t]

theorem written_erased_predicate (p : WherePredicate) :
    written imports (predicate p.erased) = written imports (predicate p) := by
  cases p with
  | lifetime l bounds => rfl
  | type binder subject bounds =>
      simp [WherePredicate.erased, predicate, bound_list_eq, written_erased subject, written_erased_bounds bounds,
        Function.comp_def]

theorem generics_erased (g : Generics) : generics imports g.erased = generics imports g := by
  have params : (g.erased.params.map param).map (written imports) = (g.params.map param).map (written imports) := by
    simp [Generics.erased, Function.comp_def, written_erased_param]
  have names : (g.erased.params.map fun p => [Part.text (paramName p)]) = g.params.map fun p => [Part.text (paramName p)] := by
    rw [Generics.erased, List.map_map]
    refine List.map_congr_left fun p _ => ?_
    cases p <;> rfl
  have predicates : (g.erased.predicates.map predicate).map (written imports)
      = (g.predicates.map predicate).map (written imports) := by
    simp [Generics.erased, Function.comp_def, written_erased_predicate]
  have lengths : g.erased.params.isEmpty = g.params.isEmpty ∧ g.erased.predicates.isEmpty = g.predicates.isEmpty := by
    simp [Generics.erased]
  have clause : written imports (whereParts g.erased) = written imports (whereParts g) := by
    unfold whereParts
    rw [lengths.2]
    split
    · rfl
    · rw [written_text, written_text, written_separated, written_separated, predicates]
  simp only [generics, paramParts, written_angled, params, names, clause, List.isEmpty_map, lengths.1]

end Signature

/-! The header read back. -/

open Parsing (parse implItem structText)

/-- The header is read as one with the generics that are written. -/
theorem header_read_erased {text : String} {decl : StructDecl} (parsed : structText text = .ok decl)
    (kept : decl.generics.erased.faithful = true) {name : Ident} (free : name.Free) :
    parse implItem ((Signature.generics .empty decl.generics).header name) = .ok (decl.generics.erased.header name) := by
  have made := (Parsing.generics_of_structText parsed).erased
  rw [← Signature.generics_erased, Signature.header_eq_glyphs kept]
  refine Parsing.parse_of_reads (decl.generics.erased.apart_header name) fun n small => ?_
  exact Parsing.reads_header (Parsing.nests_rules n) made kept free small

/-- The header of a struct is read as one with its parameters in order and their bounds, with the parameters as the
arguments of the name, and with its predicates, just if nothing in them is dropped: if no associated name with
bounds has arguments, and no trait of a projection has a leading separator. -/
theorem header_read_back_iff {text : String} {decl : StructDecl} (parsed : structText text = .ok decl)
    (kept : decl.generics.erased.faithful = true) {name : Ident} (free : name.Free) :
    parse implItem ((Signature.generics .empty decl.generics).header name) = .ok (decl.generics.header name)
      ↔ decl.generics.erased = decl.generics := by
  rw [header_read_erased parsed kept free]
  constructor
  · intro same
    exact congrArg ImplDecl.generics (Except.ok.inj same)
  · intro same
    rw [same]

namespace HeaderSample

open TypeSample (a b c named trait)

abbrev item : Ident := ⟨"Item", by decide +kernel⟩
abbrev size : Ident := ⟨"N", by decide +kernel⟩
abbrev x : Ident := ⟨"X", by decide +kernel⟩

/-- A lifetime of the sample. -/
abbrev life : Lifetime := ⟨⟨"l", by decide +kernel⟩⟩

/-- Bounds with a binder and with a question mark, a constant, and a bound that names an associated type. -/
def kept : StructDecl where
  name := a
  generics := {
    params := [
      .lifetime life [],
      .type b [.trait false false (some [[.lifetime life]]) false [.angle c false [.lifetime life]],
        .trait false true none true [.plain c]],
      .const size (named a)]
    predicates := [
      .type none (.slice (named b)) [.trait false false none false
        [.angle c false [.binding item (some [.lifetime life]) (.reference (some life) false (named a))]]],
      .lifetime life [life]] }
  fields := .positional [named b]

/-- A bound on an associated name that has an argument. -/
def dropped : StructDecl where
  name := a
  generics := ⟨[.type b [.trait false false none false
    [.angle c false [.constraint item (some [.lifetime life]) [trait false a]]]]], []⟩
  fields := .positional [named b]

end HeaderSample

open HeaderSample TypeSample in
theorem header_of_sample_read_back :
    structText "struct A<'l, B: for<'l> C<'l> + ?::C = A, const N: A>(B) where [B]: C<Item<'l> = &'l A>, 'l: 'l;" = .ok kept
    ∧ kept.generics.erased.faithful = true ∧ x.Free
    ∧ (Signature.generics .empty kept.generics).header x
      = "impl<'l, B: for<'l> C<'l> + ?::C, const N: A> X<'l, B, N> where [B]: C<Item<'l> = &'l A>, 'l: 'l \x7b\x7d"
    ∧ parse implItem ((Signature.generics .empty kept.generics).header x) = .ok (kept.generics.header x) := by
  have parsed : structText
      "struct A<'l, B: for<'l> C<'l> + ?::C = A, const N: A>(B) where [B]: C<Item<'l> = &'l A>, 'l: 'l;" = .ok kept := rfl
  have legible : kept.generics.erased.faithful = true := by decide +kernel
  have free : x.Free := by
    unfold Ident.Free
    decide +kernel
  exact ⟨parsed, legible, free, by decide +kernel, (header_read_back_iff parsed legible free).mpr rfl⟩

/-- The arguments of an associated name with bounds are not written, and the header is read as one without them. -/
theorem header_of_constraint_not_read_back :
    structText "struct A<B: C<Item<'l>: A>>(B);" = .ok HeaderSample.dropped
    ∧ (Signature.generics .empty HeaderSample.dropped.generics).header HeaderSample.x = "impl<B: C<Item: A>> X<B> \x7b\x7d"
    ∧ parse implItem "impl<B: C<Item: A>> X<B> \x7b\x7d" = .ok (HeaderSample.dropped.generics.erased.header HeaderSample.x)
    ∧ parse implItem ((Signature.generics .empty HeaderSample.dropped.generics).header HeaderSample.x)
      ≠ .ok (HeaderSample.dropped.generics.header HeaderSample.x) := by
  have parsed : structText "struct A<B: C<Item<'l>: A>>(B);" = .ok HeaderSample.dropped := rfl
  have text : (Signature.generics .empty HeaderSample.dropped.generics).header HeaderSample.x
      = "impl<B: C<Item: A>> X<B> \x7b\x7d" := by decide +kernel
  have read : parse implItem "impl<B: C<Item: A>> X<B> \x7b\x7d"
      = .ok (HeaderSample.dropped.generics.erased.header HeaderSample.x) := rfl
  refine ⟨parsed, text, read, ?_⟩
  rw [text, read]
  intro same
  cases same

end Accessors
