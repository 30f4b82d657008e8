import Accessors.Proofs.UseLeaves
import Accessors.Proofs.WrittenParts

/-!
Qualified writing as a substitution. The imports of a module replace the first name of every unqualified path, at
every depth, and nothing else; a type written with imports is the type so changed, written without any.
-/

namespace Accessors

/-- The identifier that a text is, if it is one. -/
def Ident.ofText? (text : String) : Option Ident :=
  if whole : text.toList ≠ [] ∧ Lexer.identLength text.toList = text.toList.length then some ⟨text, whole⟩ else none

theorem Ident.of_text_text (name : Ident) : Ident.ofText? name.text = some name := by
  rw [Ident.ofText?, dif_pos name.whole]

namespace ImportMap

/-- The identifiers of the path that a name is bound to. -/
def names? (imports : ImportMap) (name : Ident) : Option (List Ident) :=
  (imports.get? name.text).bind fun path => path.mapM Ident.ofText?

/-- Whether every path is one that can be written in a program: at least one segment, and identifiers alone. -/
def Nameable (imports : ImportMap) : Prop :=
  ∀ name path, imports.get? name = some path → path ≠ [] ∧ ∀ piece ∈ path, ∃ own : Ident, piece = own.text

theorem names_of_get {imports : ImportMap} (nameable : imports.Nameable) {name : Ident} {path : List String}
    (bound : imports.get? name.text = some path) :
    ∃ names, imports.names? name = some names ∧ names ≠ [] ∧ names.map Ident.text = path := by
  obtain ⟨some, plain⟩ := nameable name.text path bound
  have read : ∀ pieces : List String, (∀ piece ∈ pieces, ∃ own : Ident, piece = own.text) →
      ∃ names, pieces.mapM Ident.ofText? = Option.some names ∧ names.map Ident.text = pieces := by
    intro pieces
    induction pieces with
    | nil => exact fun _ => ⟨[], rfl, rfl⟩
    | cons piece rest ih =>
        intro all
        obtain ⟨own, same⟩ := all piece List.mem_cons_self
        obtain ⟨names, found, texts⟩ := ih fun other member => all other (List.mem_cons_of_mem piece member)
        refine ⟨own :: names, ?_, by rw [List.map_cons, texts, same]⟩
        rw [List.mapM_cons, found, same, Ident.of_text_text]
        rfl
  obtain ⟨names, found, texts⟩ := read path plain
  refine ⟨names, by rw [names?, bound]; exact found, ?_, texts⟩
  intro empty
  rw [empty] at texts
  exact some texts.symm

/-- An absolute path has a segment if the path and the module have one. -/
theorem absolutize_ne_nil {path module : List String} (some : path ≠ []) (located : module ≠ []) :
    absolutize path module ≠ [] := by
  unfold absolutize
  split
  · exact fun empty => located (List.append_eq_nil_iff.mp empty).1
  · intro empty
    have none := List.take_eq_nil_iff.mp (List.append_eq_nil_iff.mp empty).1
    rcases none with zero | missing
    · omega
    · exact located missing
  · exact some

/-- The imports of a module are nameable: their paths are put together from identifiers of its `use` trees and
from the path of the module. -/
theorem nameable_of_items (items : List Item) {module : List String} (located : module ≠ [])
    (plain : ∀ piece ∈ module, ∃ own : Ident, piece = own.text) : (ofItems items module).Nameable := by
  intro name path bound
  rw [get_of_items] at bound
  obtain ⟨leaf, last, shape⟩ := Option.map_eq_some_iff.mp bound
  rw [← shape]
  refine ⟨absolutize_ne_nil (last_leaf_path_ne_nil last) located, fun piece member => ?_⟩
  rcases mem_of_absolutize member with written | above
  · exact last_leaf_idents last piece written
  · exact plain piece above

end ImportMap

/-! The substitution. -/

namespace Segment

/-- The segment under another name. -/
def rename (name : Ident) : Segment → Segment
  | .plain _ => .plain name
  | .angle _ turbofish args => .angle name turbofish args
  | .call _ inputs output => .call name inputs output

/-- A path of names with the arguments of a segment behind the last; the segment itself for no names. -/
def along : List Ident → Segment → List Segment
  | [], s => [s]
  | [last], s => [s.rename last]
  | first :: next :: more, s => .plain first :: along (next :: more) s

end Segment

mutual

/-- The type with the first name of each unqualified path replaced by what it is an import of. -/
def Ty.qualify (imports : ImportMap) : Ty → Ty
  | .path true segments => .path true (qualifyArgs imports segments)
  | .path false segments => .path false (qualifyPath imports segments)
  | .projection subject rooted traitPath rest =>
      .projection (subject.qualify imports) rooted (qualifyArgs imports traitPath) (qualifyArgs imports rest)
  | .reference lifetime isMut target => .reference lifetime isMut (target.qualify imports)
  | .pointer isMut target => .pointer isMut (target.qualify imports)
  | .slice element => .slice (element.qualify imports)
  | .array element length => .array (element.qualify imports) length
  | .tuple elements => .tuple (qualifyTys imports elements)
  | .paren inner => .paren (inner.qualify imports)
  | .never => .never
  | .infer => .infer
  | .object isDyn bounds => .object isDyn (qualifyBounds imports bounds)
  | .opaqueImpl bounds => .opaqueImpl (qualifyBounds imports bounds)
  | .function binder isUnsafe abi inputs variadic output =>
      .function binder isUnsafe abi (qualifyInputs imports inputs) variadic (qualifyResult imports output)
  | .verbatim lexemes => .verbatim lexemes

/-- An unqualified path. The arguments of its first segment stay with the last segment that takes its place. -/
def qualifyPath (imports : ImportMap) : List Segment → List Segment
  | [] => []
  | first :: rest =>
      Segment.along ((imports.names? first.name).getD []) (first.qualify imports) ++ qualifyArgs imports rest

/-- A segment with its name kept. -/
def Segment.qualify (imports : ImportMap) : Segment → Segment
  | .plain name => .plain name
  | .angle name turbofish args => .angle name turbofish (qualifyGenericArgs imports args)
  | .call name inputs output => .call name (qualifyTys imports inputs) (qualifyResult imports output)

/-- Segments with their names kept. -/
def qualifyArgs (imports : ImportMap) : List Segment → List Segment
  | [] => []
  | first :: rest => first.qualify imports :: qualifyArgs imports rest

def GenericArg.qualify (imports : ImportMap) : GenericArg → GenericArg
  | .lifetime l => .lifetime l
  | .type t => .type (t.qualify imports)
  | .const lexemes => .const lexemes
  | .binding name args t => .binding name (qualifyOwn imports args) (t.qualify imports)
  | .constraint name args bounds => .constraint name (qualifyOwn imports args) (qualifyBounds imports bounds)

def qualifyOwn (imports : ImportMap) : Option (List GenericArg) → Option (List GenericArg)
  | none => none
  | some args => some (qualifyGenericArgs imports args)

def Bound.qualify (imports : ImportMap) : Bound → Bound
  | .lifetime l => .lifetime l
  | .trait inParens relaxed binder true segments =>
      .trait inParens relaxed binder true (qualifyArgs imports segments)
  | .trait inParens relaxed binder false segments =>
      .trait inParens relaxed binder false (qualifyPath imports segments)
  | .verbatim lexemes => .verbatim lexemes

def Input.qualify (imports : ImportMap) : Input → Input
  | .mk name t => .mk name (t.qualify imports)

def qualifyResult (imports : ImportMap) : Option Ty → Option Ty
  | none => none
  | some output => some (output.qualify imports)

def qualifyTys (imports : ImportMap) : List Ty → List Ty
  | [] => []
  | first :: rest => first.qualify imports :: qualifyTys imports rest

def qualifyGenericArgs (imports : ImportMap) : List GenericArg → List GenericArg
  | [] => []
  | first :: rest => first.qualify imports :: qualifyGenericArgs imports rest

def qualifyBounds (imports : ImportMap) : List Bound → List Bound
  | [] => []
  | first :: rest => first.qualify imports :: qualifyBounds imports rest

def qualifyInputs (imports : ImportMap) : List Input → List Input
  | [] => []
  | first :: rest => first.qualify imports :: qualifyInputs imports rest

end

namespace Segment

variable {imports : ImportMap}

@[simp] theorem name_qualify (s : Segment) : (s.qualify imports).name = s.name := by
  cases s <;> rfl

@[simp] theorem name_rename (name : Ident) (s : Segment) : (s.rename name).name = name := by
  cases s <;> rfl

@[simp] theorem args_rename (name : Ident) (s : Segment) :
    Signature.argsParts (s.rename name) = Signature.argsParts s := by
  cases s <;> rfl

end Segment

/-! The two ways of writing agree, one case for each form of a type. -/

namespace Signature

variable {imports : ImportMap}

theorem join_append_head (separator front back : String) (more : List String) :
    Text.join separator ((front ++ back) :: more) = front ++ Text.join separator (back :: more) := by
  cases more with
  | nil => simp [Text.join]
  | cons next rest =>
      have some : next :: rest ≠ [] := List.cons_ne_nil next rest
      simp only [Text.join, String.intercalate_cons_of_ne_nil some, String.append_assoc]

/-- The names of an import with arguments behind the last are one piece of the path they stand in. -/
theorem written_along {names : List Ident} (some : names ≠ []) (s : Segment) (more : List String) :
    Text.join "::" ((Segment.along names s).map (fun s => written .empty (segment s)) ++ more)
      = Text.join "::" ((Text.join "::" (names.map Ident.text) ++ written .empty (argsParts s)) :: more) := by
  induction names with
  | nil => exact absurd rfl some
  | cons first rest ih =>
      cases rest with
      | nil => simp [Segment.along, segment_eq, Text.join]
      | cons next others =>
          have inner := ih (List.cons_ne_nil next others)
          have filled : (Segment.along (next :: others) s).map (fun s => written .empty (segment s)) ++ more ≠ [] := by
            cases others <;> simp [Segment.along]
          have named : Text.join "::" ((first :: next :: others).map Ident.text)
              = first.text ++ "::" ++ Text.join "::" ((next :: others).map Ident.text) :=
            String.intercalate_cons_of_ne_nil (List.cons_ne_nil _ _)
          calc Text.join "::" ((Segment.along (first :: next :: others) s).map
                  (fun s => written .empty (segment s)) ++ more)
              = first.text ++ "::" ++ Text.join "::"
                  ((Segment.along (next :: others) s).map (fun s => written .empty (segment s)) ++ more) := by
                rw [Segment.along, List.map_cons, List.cons_append, Text.join,
                  String.intercalate_cons_of_ne_nil filled]
                simp [segment, Text.join]
            _ = Text.join "::" ((first.text ++ "::" ++ Text.join "::" ((next :: others).map Ident.text)
                  ++ written .empty (argsParts s)) :: more) := by
                rw [inner, ← join_append_head, ← String.append_assoc]
            _ = Text.join "::" ((Text.join "::" ((first :: next :: others).map Ident.text)
                  ++ written .empty (argsParts s)) :: more) := by
                rw [named]

theorem imported_text_names (nameable : imports.Nameable) {name : Ident} {names : List Ident} (found : imports.names? name = some names) :
    importedText imports name.text = Text.join "::" (names.map Ident.text) := by
  cases bound : imports.get? name.text with
  | none =>
      rw [ImportMap.names?, bound] at found
      exact absurd found (by simp)
  | some path =>
      obtain ⟨others, again, _, texts⟩ := ImportMap.names_of_get nameable bound
      rw [Option.some.inj (found.symm.trans again), texts, importedText, bound]

/-- A path whose first segment is replaced is written as the path is with the imports. -/
theorem written_qualify_path (nameable : imports.Nameable) {first : Segment} {rest : List Segment}
    (args : written .empty (argsParts (first.qualify imports)) = written imports (argsParts first))
    (others : (qualifyArgs imports rest).map (fun s => written .empty (segment s))
      = rest.map fun s => written imports (segment s)) :
    written .empty (pathParts (qualifyPath imports (first :: rest))) = written imports (pathParts (first :: rest)) := by
  rw [written_path_empty, written_path, qualifyPath, List.map_append, others]
  cases bound : imports.get? first.name.text with
  | none =>
      have unbound : imports.names? first.name = none := by rw [ImportMap.names?, bound]; rfl
      have kept : importedText imports first.name.text = first.name.text := by rw [importedText, bound]
      rw [unbound, kept, ← args]
      simp [Segment.along, segment_eq]
  | some path =>
      obtain ⟨names, found, some, texts⟩ := ImportMap.names_of_get nameable bound
      rw [imported_text_names nameable found, found, Option.getD_some, written_along some, args]

mutual

/-- A type is written with imports as the type they make of it is written without any. -/
theorem written_qualify (nameable : imports.Nameable) (t : Ty) : written .empty (parts (t.qualify imports)) = written imports (parts t) := by
  cases t with
  | path rooted segments =>
      cases rooted with
      | true => simp [Ty.qualify, parts, segment_list_eq, written_qualify_args nameable segments, Function.comp_def]
      | false =>
          cases segments with
          | nil => rfl
          | cons first rest =>
              simpa [Ty.qualify, parts] using written_qualify_path nameable (written_qualify_arguments nameable first)
                (written_qualify_args nameable rest)
  | projection subject rooted traitPath rest =>
      cases traitPath with
      | nil =>
          simp [Ty.qualify, qualifyArgs, parts, segment_list_eq, written_qualify nameable subject,
            written_qualify_args nameable rest, Function.comp_def]
      | cons first more =>
          simp [Ty.qualify, qualifyArgs, parts, segment_list_eq, written_qualify nameable subject, segment_eq first,
            segment_eq (first.qualify imports), written_qualify_arguments nameable first, written_qualify_args nameable more,
            written_qualify_args nameable rest, Function.comp_def]
  | reference lifetime isMut target =>
      cases lifetime <;> cases isMut <;> simp [Ty.qualify, parts, written_qualify nameable target]
  | pointer isMut target => simp [Ty.qualify, parts, written_qualify nameable target]
  | slice element => simp [Ty.qualify, parts, written_qualify nameable element]
  | array element length => simp [Ty.qualify, parts, written_qualify nameable element]
  | tuple elements =>
      have listed := written_qualify_tys nameable elements
      match elements with
      | [] => simp [Ty.qualify, qualifyTys, parts, tyList]
      | [only] => simpa [Ty.qualify, qualifyTys, parts] using written_qualify nameable only
      | first :: second :: rest =>
          simpa [Ty.qualify, qualifyTys, parts, ty_list_eq, Function.comp_def]
            using congrArg (Text.join ", ") listed
  | paren inner => simp [Ty.qualify, parts, written_qualify nameable inner]
  | never => rfl
  | infer => rfl
  | object isDyn bounds =>
      cases isDyn
        <;> simp [Ty.qualify, parts, bound_list_eq, written_qualify_bounds nameable bounds, Function.comp_def]
  | opaqueImpl bounds =>
      simp [Ty.qualify, parts, bound_list_eq, written_qualify_bounds nameable bounds, Function.comp_def]
  | function binder isUnsafe abi inputs variadic output =>
      cases isUnsafe <;> cases variadic
        <;> simp [Ty.qualify, parts, input_list_eq, written_qualify_inputs nameable inputs,
          written_qualify_result nameable output, Function.comp_def]
  | verbatim lexemes => simp [Ty.qualify, parts]

theorem written_qualify_arguments (nameable : imports.Nameable) (s : Segment) :
    written .empty (argsParts (s.qualify imports)) = written imports (argsParts s) := by
  cases s with
  | plain name => rfl
  | angle name turbofish args =>
      simp [Segment.qualify, argsParts, arg_list_eq, written_qualify_generic_args nameable args, Function.comp_def]
  | call name inputs output =>
      simp [Segment.qualify, argsParts, ty_list_eq, written_qualify_tys nameable inputs, written_qualify_result nameable output,
        Function.comp_def]

theorem written_qualify_args (nameable : imports.Nameable) (segments : List Segment) :
    (qualifyArgs imports segments).map (fun s => written .empty (segment s))
      = segments.map fun s => written imports (segment s) := by
  cases segments with
  | nil => rfl
  | cons first rest =>
      simp [qualifyArgs, segment_eq first, segment_eq (first.qualify imports), written_qualify_arguments nameable first,
        written_qualify_args nameable rest]

theorem written_qualify_result (nameable : imports.Nameable) (output : Option Ty) :
    written .empty (resultParts (qualifyResult imports output)) = written imports (resultParts output) := by
  cases output with
  | none => rfl
  | some t => simp [qualifyResult, resultParts, written_qualify nameable t]

theorem written_qualify_arg (nameable : imports.Nameable) (a : GenericArg) :
    written .empty (arg (a.qualify imports)) = written imports (arg a) := by
  cases a with
  | lifetime l => rfl
  | type t => exact written_qualify nameable t
  | const lexemes => rfl
  | binding name args t =>
      simp [GenericArg.qualify, arg, written_qualify_own nameable args, written_qualify nameable t]
  | constraint name args bounds =>
      simp [GenericArg.qualify, arg, bound_list_eq, written_qualify_bounds nameable bounds, Function.comp_def]

theorem written_qualify_own (nameable : imports.Nameable) (args : Option (List GenericArg)) :
    written .empty (ownArgs (qualifyOwn imports args)) = written imports (ownArgs args) := by
  cases args with
  | none => rfl
  | some args =>
      simp [qualifyOwn, ownArgs, arg_list_eq, written_qualify_generic_args nameable args, Function.comp_def]

theorem written_qualify_bound (nameable : imports.Nameable) (b : Bound) :
    written .empty (bound (b.qualify imports)) = written imports (bound b) := by
  cases b with
  | lifetime l => rfl
  | trait inParens relaxed binder rooted segments =>
      cases rooted with
      | true =>
          cases inParens <;> cases relaxed
            <;> simp [Bound.qualify, bound, segment_list_eq, written_qualify_args nameable segments, Function.comp_def]
      | false =>
          have path : written .empty (pathParts (qualifyPath imports segments)) = written imports (pathParts segments) := by
            cases segments with
            | nil => rfl
            | cons first rest =>
                exact written_qualify_path nameable (written_qualify_arguments nameable first) (written_qualify_args nameable rest)
          cases inParens <;> cases relaxed <;> simp [Bound.qualify, bound, path]
  | verbatim lexemes => rfl

theorem written_qualify_input (nameable : imports.Nameable) (i : Input) :
    written .empty (input (i.qualify imports)) = written imports (input i) := by
  cases i with
  | mk name t => cases name <;> simp [Input.qualify, input, written_qualify nameable t]

theorem written_qualify_tys (nameable : imports.Nameable) (ts : List Ty) :
    (qualifyTys imports ts).map (fun t => written .empty (parts t)) = ts.map fun t => written imports (parts t) := by
  cases ts with
  | nil => rfl
  | cons first rest => simp [qualifyTys, written_qualify nameable first, written_qualify_tys nameable rest]

theorem written_qualify_generic_args (nameable : imports.Nameable) (args : List GenericArg) :
    (qualifyGenericArgs imports args).map (fun a => written .empty (arg a))
      = args.map fun a => written imports (arg a) := by
  cases args with
  | nil => rfl
  | cons first rest => simp [qualifyGenericArgs, written_qualify_arg nameable first, written_qualify_generic_args nameable rest]

theorem written_qualify_bounds (nameable : imports.Nameable) (bounds : List Bound) :
    (qualifyBounds imports bounds).map (fun b => written .empty (bound b))
      = bounds.map fun b => written imports (bound b) := by
  cases bounds with
  | nil => rfl
  | cons first rest => simp [qualifyBounds, written_qualify_bound nameable first, written_qualify_bounds nameable rest]

theorem written_qualify_inputs (nameable : imports.Nameable) (inputs : List Input) :
    (qualifyInputs imports inputs).map (fun i => written .empty (input i))
      = inputs.map fun i => written imports (input i) := by
  cases inputs with
  | nil => rfl
  | cons first rest => simp [qualifyInputs, written_qualify_input nameable first, written_qualify_inputs nameable rest]

end

end Signature

/-- Writing a type with the imports of a module is writing, without imports, the type in which they replace the
first name of each unqualified path. -/
theorem signature_by_substitution {imports : ImportMap} (nameable : imports.Nameable) (t : Ty) :
    Signature.ty imports t = Signature.ty .empty (t.qualify imports) :=
  (Signature.written_qualify nameable t).symm

namespace ImportSample

abbrev dateTime : Ident := ⟨"DateTime", by decide +kernel⟩
abbrev utc : Ident := ⟨"Utc", by decide +kernel⟩
abbrev chrono : Ident := ⟨"chrono", by decide +kernel⟩

/-- The imports of `use chrono::{DateTime, Utc}`. -/
def imports : ImportMap :=
  .ofItems [.use false (.path chrono (.group [.name dateTime, .name utc]))] ["crate", "models"]

/-- Imported names in the arguments of an imported name, and one behind a leading separator. -/
def imported : Ty :=
  .tuple [.path false [.angle dateTime false [.type (.path false [.plain utc])]], .path true [.plain utc]]

theorem nameable : imports.Nameable := by
  refine ImportMap.nameable_of_items _ (by decide) fun piece member => ?_
  simp only [List.mem_cons, List.not_mem_nil, or_false] at member
  rcases member with rfl | rfl
  · exact ⟨⟨"crate", by decide +kernel⟩, rfl⟩
  · exact ⟨⟨"models", by decide +kernel⟩, rfl⟩

end ImportSample

open ImportSample in
theorem signature_of_imported : imports.Nameable
    ∧ Signature.ty imports imported = "(chrono::DateTime<chrono::Utc>, ::Utc)"
    ∧ Signature.ty .empty (imported.qualify imports) = "(chrono::DateTime<chrono::Utc>, ::Utc)"
    ∧ Signature.ty .empty imported = "(DateTime<Utc>, ::Utc)" := by
  have written : Signature.ty imports imported = "(chrono::DateTime<chrono::Utc>, ::Utc)" := by decide +kernel
  refine ⟨nameable, written, ?_, by decide +kernel⟩
  rw [← signature_by_substitution nameable imported]
  exact written

end Accessors
