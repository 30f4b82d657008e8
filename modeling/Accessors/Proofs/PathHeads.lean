import Accessors.Signature.Generics

/-!
The unqualified paths in a type, at every depth: those without a leading `::` that are not read through a type.
Each is one of the parts that the type is taken apart into, in the same order. The arguments of a name with bounds
are the only place whose paths are not written.
-/

namespace Accessors

/-- The first name of an unqualified path. -/
structure PathHead where
  name : Ident
  /-- The path is this one segment. -/
  alone : Bool
  /-- The path stands in the arguments of an associated name with bounds. -/
  bounded : Bool
  deriving DecidableEq, Repr

mutual

/-- The heads of the unqualified paths in a type. -/
def Ty.heads : Ty → List PathHead
  | .path true segments => argHeads segments
  | .path false segments => pathHeads segments
  | .projection subject _ traitPath rest => subject.heads ++ argHeads traitPath ++ argHeads rest
  | .reference _ _ target => target.heads
  | .pointer _ target => target.heads
  | .slice element => element.heads
  | .array element _ => element.heads
  | .tuple elements => tyHeads elements
  | .paren inner => inner.heads
  | .never => []
  | .infer => []
  | .object _ bounds => boundHeads bounds
  | .opaqueImpl bounds => boundHeads bounds
  | .function _ _ _ inputs _ output => inputHeads inputs ++ resultHeads output
  | .verbatim _ => []

def pathHeads : List Segment → List PathHead
  | [] => []
  | first :: rest => ⟨first.name, rest.isEmpty, false⟩ :: first.heads ++ argHeads rest

/-- The heads in the arguments of a segment. -/
def Segment.heads : Segment → List PathHead
  | .plain _ => []
  | .angle _ _ args => genericHeads args
  | .call _ inputs output => tyHeads inputs ++ resultHeads output

def argHeads : List Segment → List PathHead
  | [] => []
  | first :: rest => first.heads ++ argHeads rest

def GenericArg.heads : GenericArg → List PathHead
  | .lifetime _ => []
  | .type t => t.heads
  | .const _ => []
  | .binding _ args t => ownHeads args ++ t.heads
  | .constraint _ args bounds =>
      (ownHeads args).map (fun head => { head with bounded := true }) ++ boundHeads bounds

def ownHeads : Option (List GenericArg) → List PathHead
  | none => []
  | some args => genericHeads args

def Bound.heads : Bound → List PathHead
  | .lifetime _ => []
  | .trait _ _ _ true segments => argHeads segments
  | .trait _ _ _ false segments => pathHeads segments
  | .verbatim _ => []

def Input.heads : Input → List PathHead
  | .mk _ t => t.heads

def resultHeads : Option Ty → List PathHead
  | none => []
  | some output => output.heads

def tyHeads : List Ty → List PathHead
  | [] => []
  | first :: rest => first.heads ++ tyHeads rest

def genericHeads : List GenericArg → List PathHead
  | [] => []
  | first :: rest => first.heads ++ genericHeads rest

def boundHeads : List Bound → List PathHead
  | [] => []
  | first :: rest => first.heads ++ boundHeads rest

def inputHeads : List Input → List PathHead
  | [] => []
  | first :: rest => first.heads ++ inputHeads rest

end

def GenericParam.heads : GenericParam → List PathHead
  | .lifetime _ _ => []
  | .type _ bounds => boundHeads bounds
  | .const _ t => t.heads

def WherePredicate.heads : WherePredicate → List PathHead
  | .lifetime _ _ => []
  | .type _ subject bounds => subject.heads ++ boundHeads bounds

/-- The heads in the generics of a struct. -/
def Generics.heads (g : Generics) : List PathHead :=
  g.params.flatMap GenericParam.heads ++ g.predicates.flatMap WherePredicate.heads

namespace Signature

/-- The head a part is written for, or left out for. -/
def Part.head? : Part → Option PathHead
  | .text _ => none
  | .head name alone => some ⟨name, alone, false⟩
  | .omitted name alone => some ⟨name, alone, true⟩

/-- The heads among some parts. -/
def headsOf (parts : List Part) : List PathHead := parts.filterMap Part.head?

@[simp] theorem heads_of_nil : headsOf [] = [] := rfl

@[simp] theorem heads_of_append (a b : List Part) : headsOf (a ++ b) = headsOf a ++ headsOf b :=
  List.filterMap_append

@[simp] theorem heads_of_text (fixed : String) (rest : List Part) :
    headsOf (.text fixed :: rest) = headsOf rest := rfl

@[simp] theorem heads_of_head (name : Ident) (alone : Bool) (rest : List Part) :
    headsOf (.head name alone :: rest) = ⟨name, alone, false⟩ :: headsOf rest := rfl

@[simp] theorem heads_of_separated (separator : String) (elements : List (List Part)) :
    headsOf (separated separator elements) = elements.flatMap headsOf := by
  fun_induction separated separator elements with
  | case1 => rfl
  | case2 only => simp
  | case3 first second rest ih => simp [ih]

@[simp] theorem heads_of_unwritten (parts : List Part) :
    headsOf (unwritten parts) = (headsOf parts).map fun head => { head with bounded := true } := by
  fun_induction unwritten parts with
  | case1 => rfl
  | case2 fixed rest ih => simpa using ih
  | case3 rest name alone ih | case4 rest name alone ih => simpa [headsOf, Part.head?] using ih

mutual

/-- The paths in a type are written, or left out, one after the other. -/
theorem heads_of_parts (t : Ty) : headsOf (parts t) = t.heads := by
  cases t with
  | path rooted segments =>
      cases rooted with
      | true => simp [parts, Ty.heads, heads_of_segment_list segments]
      | false => simp [parts, Ty.heads, heads_of_path_parts segments]
  | projection subject rooted traitPath rest =>
      cases traitPath with
      | nil => simp [parts, Ty.heads, argHeads, heads_of_parts subject, heads_of_segment_list rest]
      | cons first more =>
          simp [parts, Ty.heads, argHeads, heads_of_parts subject, heads_of_segment first,
            heads_of_segment_list more, heads_of_segment_list rest]
  | reference lifetime isMut target =>
      cases lifetime <;> cases isMut <;> simp [parts, Ty.heads, heads_of_parts target]
  | pointer isMut target => simp [parts, Ty.heads, heads_of_parts target]
  | slice element => simp [parts, Ty.heads, heads_of_parts element]
  | array element length => simp [parts, Ty.heads, heads_of_parts element]
  | tuple elements =>
      have listed := heads_of_ty_list elements
      match elements with
      | [] => simp [parts, Ty.heads, tyHeads, tyList]
      | [only] => simpa [parts, Ty.heads, tyList] using listed
      | first :: second :: rest => simpa [parts, Ty.heads] using listed
  | paren inner => simp [parts, Ty.heads, heads_of_parts inner]
  | never => simp [parts, Ty.heads]
  | infer => simp [parts, Ty.heads]
  | object isDyn bounds => cases isDyn <;> simp [parts, Ty.heads, heads_of_bound_list bounds]
  | opaqueImpl bounds => simp [parts, Ty.heads, heads_of_bound_list bounds]
  | function binder isUnsafe abi inputs variadic output =>
      cases isUnsafe <;> cases variadic
        <;> simp [parts, Ty.heads, heads_of_input_list inputs, heads_of_result_parts output]
  | verbatim lexemes => simp [parts, Ty.heads]

theorem heads_of_path_parts (segments : List Segment) : headsOf (pathParts segments) = pathHeads segments := by
  cases segments with
  | nil => simp [pathParts, pathHeads]
  | cons first rest =>
      simp [pathParts, pathHeads, heads_of_args_parts first, heads_of_segment_list rest]

theorem heads_of_segment (s : Segment) : headsOf (segment s) = s.heads := by
  cases s with
  | plain name => simp [segment, Segment.heads]
  | angle name turbofish args => simp [segment, Segment.heads, heads_of_arg_list args]
  | call name inputs output =>
      simp [segment, Segment.heads, heads_of_ty_list inputs, heads_of_result_parts output]

theorem heads_of_args_parts (s : Segment) : headsOf (argsParts s) = s.heads := by
  cases s with
  | plain name => simp [argsParts, Segment.heads]
  | angle name turbofish args => simp [argsParts, Segment.heads, heads_of_arg_list args]
  | call name inputs output =>
      simp [argsParts, Segment.heads, heads_of_ty_list inputs, heads_of_result_parts output]

theorem heads_of_result_parts (output : Option Ty) : headsOf (resultParts output) = resultHeads output := by
  cases output with
  | none => simp [resultParts, resultHeads]
  | some t => simp [resultParts, resultHeads, heads_of_parts t]

theorem heads_of_arg (a : GenericArg) : headsOf (arg a) = a.heads := by
  cases a with
  | lifetime l => simp [arg, GenericArg.heads]
  | type t => simp [arg, GenericArg.heads, heads_of_parts t]
  | const lexemes => simp [arg, GenericArg.heads]
  | binding name args t => simp [arg, GenericArg.heads, heads_of_own_args args, heads_of_parts t]
  | constraint name args bounds =>
      simp [arg, GenericArg.heads, heads_of_own_args args, heads_of_bound_list bounds]

theorem heads_of_own_args (args : Option (List GenericArg)) : headsOf (ownArgs args) = ownHeads args := by
  cases args with
  | none => simp [ownArgs, ownHeads]
  | some args => simp [ownArgs, ownHeads, heads_of_arg_list args]

theorem heads_of_bound (b : Bound) : headsOf (bound b) = b.heads := by
  cases b with
  | lifetime l => simp [bound, Bound.heads]
  | trait inParens relaxed binder rooted segments =>
      cases rooted with
      | true =>
          cases inParens <;> cases relaxed <;> simp [bound, Bound.heads, heads_of_segment_list segments]
      | false =>
          cases inParens <;> cases relaxed <;> simp [bound, Bound.heads, heads_of_path_parts segments]
  | verbatim lexemes => simp [bound, Bound.heads]

theorem heads_of_input (i : Input) : headsOf (input i) = i.heads := by
  cases i with
  | mk name t => cases name <;> simp [input, Input.heads, heads_of_parts t]

theorem heads_of_ty_list (ts : List Ty) : (tyList ts).flatMap headsOf = tyHeads ts := by
  cases ts with
  | nil => simp [tyList, tyHeads]
  | cons first rest => simp [tyList, tyHeads, heads_of_parts first, heads_of_ty_list rest]

theorem heads_of_segment_list (segments : List Segment) :
    (segmentList segments).flatMap headsOf = argHeads segments := by
  cases segments with
  | nil => simp [segmentList, argHeads]
  | cons first rest => simp [segmentList, argHeads, heads_of_segment first, heads_of_segment_list rest]

theorem heads_of_arg_list (args : List GenericArg) : (argList args).flatMap headsOf = genericHeads args := by
  cases args with
  | nil => simp [argList, genericHeads]
  | cons first rest => simp [argList, genericHeads, heads_of_arg first, heads_of_arg_list rest]

theorem heads_of_bound_list (bounds : List Bound) : (boundList bounds).flatMap headsOf = boundHeads bounds := by
  cases bounds with
  | nil => simp [boundList, boundHeads]
  | cons first rest => simp [boundList, boundHeads, heads_of_bound first, heads_of_bound_list rest]

theorem heads_of_input_list (inputs : List Input) : (inputList inputs).flatMap headsOf = inputHeads inputs := by
  cases inputs with
  | nil => simp [inputList, inputHeads]
  | cons first rest => simp [inputList, inputHeads, heads_of_input first, heads_of_input_list rest]

end

@[simp] theorem heads_of_angled (elements : List (List Part)) :
    headsOf (angled elements) = elements.flatMap headsOf := by
  unfold angled
  cases elements with
  | nil => rfl
  | cons first rest => simp

@[simp] theorem heads_of_bounded (subject : String) (bounds : List (List Part)) :
    headsOf (bounded subject bounds) = bounds.flatMap headsOf := by
  unfold bounded
  cases bounds with
  | nil => rfl
  | cons first rest => simp

@[simp] theorem heads_of_lifetime_bounds (bounds : List Lifetime) :
    (bounds.map lifetimeBound).flatMap headsOf = [] := by
  simp [lifetimeBound]

/-- The paths in the generics of a struct, before its name and behind it. -/
theorem heads_of_generics (g : Generics) : headsOf (paramParts g ++ whereParts g) = g.heads := by
  have params : (g.params.map param).flatMap headsOf = g.params.flatMap GenericParam.heads := by
    rw [List.flatMap_map]
    refine congrArg (g.params.flatMap ·) (funext fun p => ?_)
    cases p with
    | lifetime l bounds => simp [param, GenericParam.heads]
    | type name bounds => simp [param, GenericParam.heads, heads_of_bound_list bounds]
    | const name t => simp [param, GenericParam.heads, heads_of_parts t]
  have predicates : (g.predicates.map predicate).flatMap headsOf = g.predicates.flatMap WherePredicate.heads := by
    rw [List.flatMap_map]
    refine congrArg (g.predicates.flatMap ·) (funext fun p => ?_)
    cases p with
    | lifetime l bounds => simp [predicate, WherePredicate.heads]
    | type binder subject bounds =>
        simp [predicate, WherePredicate.heads, heads_of_parts subject, heads_of_bound_list bounds]
  have clause : headsOf (whereParts g) = (g.predicates.map predicate).flatMap headsOf := by
    unfold whereParts
    cases g.predicates with
    | nil => rfl
    | cons first rest => simp
  rw [heads_of_append, paramParts, heads_of_angled, params, clause, predicates, Generics.heads]

end Signature

end Accessors
