import Accessors.Proofs.TypeGrammar
import Accessors.Proofs.WrittenParts

/-!
Types without what their writing drops. Two things in a type are never written: the arguments of an associated name
that has bounds, and the `::` in front of the trait of a projection. A type without them is written in the same
text, and the grammar yields it where it yields the type itself.
-/

namespace Accessors

mutual

/-- The type without what its writing drops. -/
def Ty.erased : Ty → Ty
  | .path rooted segments => .path rooted (erasedSegments segments)
  | .projection subject _ traitPath rest =>
      .projection subject.erased false (erasedSegments traitPath) (erasedSegments rest)
  | .reference l isMut target => .reference l isMut target.erased
  | .pointer isMut target => .pointer isMut target.erased
  | .slice element => .slice element.erased
  | .array element length => .array element.erased length
  | .tuple elements => .tuple (erasedTys elements)
  | .paren inner => .paren inner.erased
  | .never => .never
  | .infer => .infer
  | .object isDyn bounds => .object isDyn (erasedBounds bounds)
  | .opaqueImpl bounds => .opaqueImpl (erasedBounds bounds)
  | .function binder isUnsafe abi inputs variadic output =>
      .function binder isUnsafe abi (erasedInputs inputs) variadic (erasedOutput output)
  | .verbatim lexemes => .verbatim lexemes

def Segment.erased : Segment → Segment
  | .plain name => .plain name
  | .angle name turbofish args => .angle name turbofish (erasedArgs args)
  | .call name inputs output => .call name (erasedTys inputs) (erasedOutput output)

def erasedOutput : Option Ty → Option Ty
  | none => none
  | some output => some output.erased

def GenericArg.erased : GenericArg → GenericArg
  | .lifetime l => .lifetime l
  | .type t => .type t.erased
  | .const lexemes => .const lexemes
  | .binding name args t => .binding name (erasedOwn args) t.erased
  | .constraint name _ bounds => .constraint name none (erasedBounds bounds)

def erasedOwn : Option (List GenericArg) → Option (List GenericArg)
  | none => none
  | some args => some (erasedArgs args)

def Bound.erased : Bound → Bound
  | .lifetime l => .lifetime l
  | .trait inParens relaxed binder rooted segments => .trait inParens relaxed binder rooted (erasedSegments segments)
  | .verbatim lexemes => .verbatim lexemes

def Input.erased : Input → Input
  | .mk name t => .mk name t.erased

def erasedTys : List Ty → List Ty
  | [] => []
  | t :: rest => t.erased :: erasedTys rest

def erasedSegments : List Segment → List Segment
  | [] => []
  | s :: rest => s.erased :: erasedSegments rest

def erasedArgs : List GenericArg → List GenericArg
  | [] => []
  | a :: rest => a.erased :: erasedArgs rest

def erasedBounds : List Bound → List Bound
  | [] => []
  | b :: rest => b.erased :: erasedBounds rest

def erasedInputs : List Input → List Input
  | [] => []
  | i :: rest => i.erased :: erasedInputs rest

end

section

theorem erased_tys_eq (ts : List Ty) : erasedTys ts = ts.map Ty.erased := by
  induction ts with
  | nil => rfl
  | cons t rest ih => rw [erasedTys, ih, List.map_cons]

theorem erased_segments_eq (segments : List Segment) : erasedSegments segments = segments.map Segment.erased := by
  induction segments with
  | nil => rfl
  | cons s rest ih => rw [erasedSegments, ih, List.map_cons]

theorem erased_args_eq (args : List GenericArg) : erasedArgs args = args.map GenericArg.erased := by
  induction args with
  | nil => rfl
  | cons a rest ih => rw [erasedArgs, ih, List.map_cons]

theorem erased_bounds_eq (bounds : List Bound) : erasedBounds bounds = bounds.map Bound.erased := by
  induction bounds with
  | nil => rfl
  | cons b rest ih => rw [erasedBounds, ih, List.map_cons]

theorem erased_inputs_eq (inputs : List Input) : erasedInputs inputs = inputs.map Input.erased := by
  induction inputs with
  | nil => rfl
  | cons i rest ih => rw [erasedInputs, ih, List.map_cons]

theorem forall_erased_tys {ts : List Ty} {P : Ty → Prop} : (∀ t ∈ erasedTys ts, P t) ↔ ∀ t ∈ ts, P t.erased := by
  rw [erased_tys_eq, List.forall_mem_map]

theorem forall_erased_segments {segments : List Segment} {P : Segment → Prop} :
    (∀ s ∈ erasedSegments segments, P s) ↔ ∀ s ∈ segments, P s.erased := by
  rw [erased_segments_eq, List.forall_mem_map]

theorem forall_erased_args {args : List GenericArg} {P : GenericArg → Prop} :
    (∀ a ∈ erasedArgs args, P a) ↔ ∀ a ∈ args, P a.erased := by
  rw [erased_args_eq, List.forall_mem_map]

theorem forall_erased_bounds {bounds : List Bound} {P : Bound → Prop} :
    (∀ b ∈ erasedBounds bounds, P b) ↔ ∀ b ∈ bounds, P b.erased := by
  rw [erased_bounds_eq, List.forall_mem_map]

theorem forall_erased_inputs {inputs : List Input} {P : Input → Prop} :
    (∀ i ∈ erasedInputs inputs, P i) ↔ ∀ i ∈ inputs, P i.erased := by
  rw [erased_inputs_eq, List.forall_mem_map]

theorem erased_segments_some {segments : List Segment} (some : segments ≠ []) : erasedSegments segments ≠ [] := by
  rw [erased_segments_eq]
  exact fun none => some (List.map_eq_nil_iff.mp none)

theorem erased_output_some {output : Option Ty} {t : Ty} (same : erasedOutput output = some t) :
    ∃ own, output = some own ∧ own.erased = t := by
  cases output with
  | none => cases same
  | some own => exact ⟨own, rfl, Option.some.inj same⟩

@[simp] theorem Segment.name_erased (s : Segment) : s.erased.name = s.name := by
  cases s <;> rfl

end

/-! The text stays the same. -/

namespace Signature

variable {imports : ImportMap}

theorem written_erased_path {first : Segment} {rest : List Segment}
    (args : written imports (argsParts first.erased) = written imports (argsParts first))
    (others : (erasedSegments rest).map (fun s => written imports (segment s)) = rest.map fun s => written imports (segment s)) :
    written imports (pathParts (erasedSegments (first :: rest))) = written imports (pathParts (first :: rest)) := by
  rw [erasedSegments, written_path, written_path, others, Segment.name_erased, args]

mutual

theorem written_erased (t : Ty) : written imports (parts t.erased) = written imports (parts t) := by
  cases t with
  | path rooted segments =>
      cases rooted with
      | true => simp [Ty.erased, parts, segment_list_eq, written_erased_segments segments, Function.comp_def]
      | false =>
          cases segments with
          | nil => rfl
          | cons first rest =>
              simpa [Ty.erased, parts] using
                written_erased_path (written_erased_arguments first) (written_erased_segments rest)
  | projection subject rooted traitPath rest =>
      cases traitPath with
      | nil =>
          simp [Ty.erased, erasedSegments, parts, segment_list_eq, written_erased subject, written_erased_segments rest,
            Function.comp_def]
      | cons first more =>
          simp [Ty.erased, erasedSegments, parts, segment_list_eq, written_erased subject, segment_eq first,
            segment_eq first.erased, written_erased_arguments first, written_erased_segments more, written_erased_segments rest,
            Function.comp_def]
  | reference l isMut target => cases l <;> cases isMut <;> simp [Ty.erased, parts, written_erased target]
  | pointer isMut target => simp [Ty.erased, parts, written_erased target]
  | slice element => simp [Ty.erased, parts, written_erased element]
  | array element length => simp [Ty.erased, parts, written_erased element]
  | tuple elements =>
      have listed := written_erased_tys elements
      match elements with
      | [] => rfl
      | [only] => simpa [Ty.erased, erasedTys, parts] using written_erased only
      | first :: second :: rest =>
          simpa [Ty.erased, erasedTys, parts, ty_list_eq, Function.comp_def] using congrArg (Text.join ", ") listed
  | paren inner => simp [Ty.erased, parts, written_erased inner]
  | never => rfl
  | infer => rfl
  | object isDyn bounds =>
      cases isDyn <;> simp [Ty.erased, parts, bound_list_eq, written_erased_bounds bounds, Function.comp_def]
  | opaqueImpl bounds => simp [Ty.erased, parts, bound_list_eq, written_erased_bounds bounds, Function.comp_def]
  | function binder isUnsafe abi inputs variadic output =>
      cases isUnsafe <;> cases variadic <;>
        simp [Ty.erased, parts, input_list_eq, written_erased_inputs inputs, written_erased_result output, Function.comp_def]
  | verbatim lexemes => rfl

theorem written_erased_arguments (s : Segment) :
    written imports (argsParts s.erased) = written imports (argsParts s) := by
  cases s with
  | plain name => rfl
  | angle name turbofish args =>
      simp [Segment.erased, argsParts, arg_list_eq, written_erased_args args, Function.comp_def]
  | call name inputs output =>
      simp [Segment.erased, argsParts, ty_list_eq, written_erased_tys inputs, written_erased_result output,
        Function.comp_def]

theorem written_erased_result (output : Option Ty) :
    written imports (resultParts (erasedOutput output)) = written imports (resultParts output) := by
  cases output with
  | none => rfl
  | some t => simp [erasedOutput, resultParts, written_erased t]

theorem written_erased_arg (a : GenericArg) : written imports (arg a.erased) = written imports (arg a) := by
  cases a with
  | lifetime l => rfl
  | type t => exact written_erased t
  | const lexemes => rfl
  | binding name args t => simp [GenericArg.erased, arg, written_erased_own args, written_erased t]
  | constraint name args bounds =>
      simp [GenericArg.erased, arg, bound_list_eq, written_erased_bounds bounds, Function.comp_def]

theorem written_erased_own (args : Option (List GenericArg)) :
    written imports (ownArgs (erasedOwn args)) = written imports (ownArgs args) := by
  cases args with
  | none => rfl
  | some args => simp [erasedOwn, ownArgs, arg_list_eq, written_erased_args args, Function.comp_def]

theorem written_erased_bound (b : Bound) : written imports (bound b.erased) = written imports (bound b) := by
  cases b with
  | lifetime l => rfl
  | trait inParens relaxed binder rooted segments =>
      cases rooted with
      | true =>
          simp [Bound.erased, bound, segment_list_eq, written_erased_segments segments, Function.comp_def]
      | false =>
          cases segments with
          | nil => rfl
          | cons first rest =>
              have path := written_erased_path (written_erased_arguments first) (written_erased_segments rest)
              simp [Bound.erased, bound, path]
  | verbatim lexemes => rfl

theorem written_erased_input (i : Input) : written imports (input i.erased) = written imports (input i) := by
  cases i with
  | mk name t => cases name <;> simp [Input.erased, input, written_erased t]

theorem written_erased_tys (ts : List Ty) :
    (erasedTys ts).map (fun t => written imports (parts t)) = ts.map fun t => written imports (parts t) := by
  cases ts with
  | nil => rfl
  | cons t rest => simp [erasedTys, written_erased t, written_erased_tys rest]

theorem written_erased_segments (segments : List Segment) :
    (erasedSegments segments).map (fun s => written imports (segment s))
      = segments.map fun s => written imports (segment s) := by
  cases segments with
  | nil => rfl
  | cons s rest =>
      simp [erasedSegments, segment_eq s, segment_eq s.erased, written_erased_arguments s, written_erased_segments rest]

theorem written_erased_args (args : List GenericArg) :
    (erasedArgs args).map (fun a => written imports (arg a)) = args.map fun a => written imports (arg a) := by
  cases args with
  | nil => rfl
  | cons a rest => simp [erasedArgs, written_erased_arg a, written_erased_args rest]

theorem written_erased_bounds (bounds : List Bound) :
    (erasedBounds bounds).map (fun b => written imports (bound b)) = bounds.map fun b => written imports (bound b) := by
  cases bounds with
  | nil => rfl
  | cons b rest => simp [erasedBounds, written_erased_bound b, written_erased_bounds rest]

theorem written_erased_inputs (inputs : List Input) :
    (erasedInputs inputs).map (fun i => written imports (input i)) = inputs.map fun i => written imports (input i) := by
  cases inputs with
  | nil => rfl
  | cons i rest => simp [erasedInputs, written_erased_input i, written_erased_inputs rest]

end

end Signature

/-! The grammar yields it. -/

theorem HeadsPath.erased {rooted : Bool} {segments : List Segment} (heads : HeadsPath rooted segments) :
    HeadsPath rooted (erasedSegments segments) := by
  cases segments with
  | nil => exact absurd rfl heads.1
  | cons s more =>
      refine ⟨List.cons_ne_nil _ _, fun unrooted first same => ?_⟩
      cases same
      rw [Segment.name_erased]
      exact heads.2 unrooted s rfl

@[simp] theorem Ty.leads_lifetime_erased (t : Ty) : t.erased.leadsLifetime = t.leadsLifetime := by
  cases t with
  | object isDyn bounds =>
      match isDyn, bounds with
      | true, _ => rfl
      | false, [] => rfl
      | false, .lifetime _ :: _ => rfl
      | false, .trait _ _ _ _ _ :: _ => rfl
      | false, .verbatim _ :: _ => rfl
  | _ => rfl

theorem names_trait_erased (bounds : List Bound) : Parsing.namesTrait (erasedBounds bounds) = Parsing.namesTrait bounds := by
  rw [erased_bounds_eq, Parsing.namesTrait, List.any_map]
  refine List.any_congr rfl fun b => ?_
  cases b <;> rfl

theorem names_none_erased (bounds : List Bound) :
    (erasedBounds bounds).all Parsing.Bound.namesNone = bounds.all Parsing.Bound.namesNone := by
  rw [erased_bounds_eq, List.all_map]
  refine List.all_congr rfl fun b => ?_
  cases b <;> rfl

theorem length_erased_bounds (bounds : List Bound) : (erasedBounds bounds).length = bounds.length := by
  rw [erased_bounds_eq, List.length_map]

-- The recursion is on how the grammar yields the type, one case for each rule.
mutual

theorem Ty.Made.erased {sums : Bool} {t : Ty} : t.Made sums → t.erased.Made sums
  | .path heads each => .path heads.erased (forall_erased_segments.mpr fun s member => (each s member).erased)
  | .projection inner trait filled each =>
      .projection inner.erased (forall_erased_segments.mpr fun s member => (trait s member).erased)
        (erased_segments_some filled) (forall_erased_segments.mpr fun s member => (each s member).erased)
  | .reference inner apart => .reference inner.erased (by rwa [Ty.leads_lifetime_erased])
  | .pointer inner => .pointer inner.erased
  | .slice inner => .slice inner.erased
  | .array => .array
  | .tuple each apart => by
      refine .tuple (forall_erased_tys.mpr fun t member => (each t member).erased) fun first same => ?_
      rw [erased_tys_eq, List.head?_map] at same
      obtain ⟨own, head, rfl⟩ := Option.map_eq_some_iff.mp same
      rw [Ty.leads_lifetime_erased]
      exact apart own head
  | .paren inner => .paren inner.erased
  | .never => .never
  | .infer => .infer
  | .dyn each names one =>
      .dyn (forall_erased_bounds.mpr fun b member => (each b member).erased) (by rwa [names_trait_erased])
        (by rwa [length_erased_bounds])
  | .opaqueImpl each names one =>
      .opaqueImpl (forall_erased_bounds.mpr fun b member => (each b member).erased) (by rwa [names_none_erased])
        (by rwa [length_erased_bounds])
  | .boundTrait heads each =>
      .boundTrait heads.erased (forall_erased_segments.mpr fun s member => (each s member).erased)
  | .loneTrait heads each =>
      .loneTrait heads.erased (forall_erased_segments.mpr fun s member => (each s member).erased)
  | .pathSum heads each unrooted later =>
      .pathSum heads.erased (forall_erased_segments.mpr fun s member => (each s member).erased) unrooted
        (forall_erased_bounds.mpr fun b member => (later b member).erased)
  | .parenSum heads each unrooted later =>
      .parenSum heads.erased (forall_erased_segments.mpr fun s member => (each s member).erased) unrooted
        (forall_erased_bounds.mpr fun b member => (later b member).erased)
  | .relaxedSum first later =>
      .relaxedSum first.erased (forall_erased_bounds.mpr fun b member => (later b member).erased)
  | .lifetimeSum later names =>
      .lifetimeSum (forall_erased_bounds.mpr fun b member => (later b member).erased) (by rwa [names_trait_erased])
  | .function each receiver result => by
      refine .function (forall_erased_inputs.mpr fun i member => (each i member).erased) ?_ fun t same => ?_
      · intro i member name t same
        rw [erased_inputs_eq, ← List.map_tail] at member
        obtain ⟨⟨own, inner⟩, listed, rfl⟩ := List.mem_map.mp member
        cases same
        exact receiver _ listed name inner rfl
      · obtain ⟨own, named, rfl⟩ := erased_output_some same
        exact (result own named).erased
  | .verbatim => .verbatim

theorem Segment.Made.erased {s : Segment} : s.Made → s.erased.Made
  | .plain names => .plain names
  | .angle takes each => .angle takes (forall_erased_args.mpr fun a member => (each a member).erased)

theorem GenericArg.Made.erased {a : GenericArg} : a.Made → a.erased.Made
  | .lifetime => .lifetime
  | .type inner => .type inner.erased
  | .const => .const
  | .binding heads inner => .binding heads inner.erased
  | .bindingArgs takes each inner =>
      .bindingArgs takes (forall_erased_args.mpr fun a member => (each a member).erased) inner.erased
  | .constraint heads each => .constraint heads (forall_erased_bounds.mpr fun b member => (each b member).erased)

theorem Bound.Made.erased {b : Bound} : b.Made → b.erased.Made
  | .lifetime => .lifetime
  | .verbatim => .verbatim
  | .trait filled each unrelaxed =>
      .trait (erased_segments_some filled) (forall_erased_segments.mpr fun s member => (each s member).erased) unrelaxed
  | .call each names ins out unrelaxed => by
      rw [Bound.erased, erased_segments_eq, List.map_append, List.map_cons, List.map_nil, Segment.erased]
      refine .call (List.forall_mem_map.mpr fun s member => (each s member).erased) names
        (forall_erased_tys.mpr fun t member => (ins t member).erased) (fun t same => ?_) unrelaxed
      obtain ⟨own, named, rfl⟩ := erased_output_some same
      exact (out own named).erased

theorem Input.Made.erased {i : Input} : i.Made → i.erased.Made
  | .unnamed inner => .unnamed inner.erased
  | .named name inner => .named name inner.erased

end

end Accessors
