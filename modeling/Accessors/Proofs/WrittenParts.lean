import Accessors.Signature.Basic

/-!
The text of a type from the texts of what it is made of: what is written for parts one after the other, and for
several things with a text between each two.
-/

namespace Accessors.Signature

variable (imports : ImportMap)

@[simp] theorem written_nil : written imports [] = "" := rfl

@[simp] theorem written_text (fixed : String) (rest : List Part) :
    written imports (.text fixed :: rest) = fixed ++ written imports rest :=
  String.join_cons

@[simp] theorem written_head (name : Ident) (alone : Bool) (rest : List Part) :
    written imports (.head name alone :: rest) = importedText imports name.text ++ written imports rest :=
  String.join_cons

@[simp] theorem written_omitted (name : Ident) (alone : Bool) (rest : List Part) :
    written imports (.omitted name alone :: rest) = written imports rest := by
  simp [written, Part.print]

@[simp] theorem written_append (first second : List Part) :
    written imports (first ++ second) = written imports first ++ written imports second := by
  simp [written]

@[simp] theorem written_unwritten (parts : List Part) : written imports (unwritten parts) = "" := by
  fun_induction unwritten parts with
  | case1 => rfl
  | case2 fixed rest ih => exact ih
  | case3 rest name alone ih | case4 rest name alone ih => simpa using ih

@[simp] theorem written_separated (separator : String) (elements : List (List Part)) :
    written imports (separated separator elements)
      = Text.join separator (elements.map (written imports)) := by
  fun_induction separated separator elements with
  | case1 => rfl
  | case2 only => simp [Text.join]
  | case3 first second rest ih =>
      have more : (second :: rest).map (written imports) ≠ [] := by simp
      change _ = String.intercalate separator (written imports first :: (second :: rest).map (written imports))
      rw [String.intercalate_cons_of_ne_nil more, written_append, written_text, ih, String.append_assoc]
      rfl

/-- Without imports every name is written as it is. -/
@[simp] theorem imported_text_empty (name : String) : importedText .empty name = name := rfl

theorem ty_list_eq (ts : List Ty) : tyList ts = ts.map parts := by
  induction ts with
  | nil => rfl
  | cons t rest ih => rw [tyList, ih, List.map_cons]

theorem segment_list_eq (segments : List Segment) : segmentList segments = segments.map segment := by
  induction segments with
  | nil => rfl
  | cons s rest ih => rw [segmentList, ih, List.map_cons]

theorem arg_list_eq (args : List GenericArg) : argList args = args.map arg := by
  induction args with
  | nil => rfl
  | cons a rest ih => rw [argList, ih, List.map_cons]

theorem bound_list_eq (bounds : List Bound) : boundList bounds = bounds.map bound := by
  induction bounds with
  | nil => rfl
  | cons b rest ih => rw [boundList, ih, List.map_cons]

theorem input_list_eq (inputs : List Input) : inputList inputs = inputs.map input := by
  induction inputs with
  | nil => rfl
  | cons i rest ih => rw [inputList, ih, List.map_cons]

/-- A segment is its name with its arguments behind it. -/
theorem segment_eq (s : Segment) : segment s = .text s.name.text :: argsParts s := by
  cases s <;> simp [segment, argsParts, Segment.name]

/-- An unqualified path: only its first name may be written differently. -/
theorem written_path (first : Segment) (rest : List Segment) :
    written imports (pathParts (first :: rest))
      = Text.join "::" ((importedText imports first.name.text ++ written imports (argsParts first))
          :: rest.map fun s => written imports (segment s)) := by
  simp [pathParts, segment_list_eq, Function.comp_def]

/-- Without imports all segments of a path are written in the same way. -/
theorem written_path_empty (segments : List Segment) :
    written .empty (pathParts segments)
      = Text.join "::" (segments.map fun s => written .empty (segment s)) := by
  cases segments with
  | nil => rfl
  | cons first rest => rw [written_path, List.map_cons, segment_eq first, written_text, imported_text_empty]

end Accessors.Signature
