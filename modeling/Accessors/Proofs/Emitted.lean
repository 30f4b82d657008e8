import Accessors.Generation.Emission
import Accessors.Proofs.BuiltInTemplates

/-!
What is emitted with the built-in templates. The text of a header and of accessors ends in a line that is not
blank, so trimming its end and writing the line break again gives it back. A device that takes nothing is always
noticed, since at least the line break of the header waits for it.
-/

namespace Accessors

open Template (Piece Value)

namespace Text

/-- Of a last line that is not blank only the line break is trimmed. -/
theorem trim_end_line {body last : String} {c : Char} (single : last.toList = [c]) (solid : isBlank c = false) :
    trimEnd (body ++ last ++ "\n") = body ++ last := by
  have blank : isBlank '\n' = true := by decide
  have chars : (body ++ last ++ "\n").toList.reverse = '\n' :: c :: body.toList.reverse := by
    simp [single]
  have dropped : ('\n' :: c :: body.toList.reverse).dropWhile isBlank = c :: body.toList.reverse := by
    simp [blank, solid]
  unfold trimEnd trimEndChars
  rw [chars, dropped]
  apply String.toList_inj.mp
  simp [single]

end Text

namespace Template.BuiltIn

theorem header_line_kept (fill : String → String) : Text.trimEnd (headerWith fill) ++ "\n" = headerWith fill := by
  have last : "`. Do not edit.\n" = "`. Do not edit" ++ "." ++ "\n" := by decide
  unfold headerWith
  rw [last, ← String.append_assoc, ← String.append_assoc]
  rw [Text.trim_end_line rfl (by decide)]

theorem accessors_kept (fill : String → String) :
    Text.trimEnd (accessorsWith fill) ++ "\n" = accessorsWith fill := by
  have last : " = val;\n    \x7d\n\x7d\n" = " = val;\n    \x7d\n" ++ "\x7d" ++ "\n" := by decide
  unfold accessorsWith
  rw [last, ← String.append_assoc, ← String.append_assoc]
  rw [Text.trim_end_line rfl (by decide)]

end Template.BuiltIn

namespace EmitRequest

/-- What stands in the places of the header. -/
def headerFill (r : EmitRequest) : String → String
  | "package_name" => r.packageName
  | "source_file" => r.sourceFile.text
  | _ => ""

/-- What stands in the places of the accessors of a field. -/
def fieldFill (r : EmitRequest) (field : FieldDescriptor) : String → String
  | "struct_name" => r.structName
  | "impl_generics" => r.generics.implGenerics
  | "type_generics" => r.generics.typeGenerics
  | "where_clause" => r.generics.whereClause
  | "field_name" => field.name
  | "accessor_name" => unraw field.name
  | "field_type" => field.signature
  | _ => ""

/-- A blank line and the accessors of a field. -/
def fieldText (r : EmitRequest) (field : FieldDescriptor) : String :=
  "\n" ++ Template.BuiltIn.accessorsWith (r.fieldFill field)

/-- The header and the accessors of all fields. -/
def text (r : EmitRequest) : String :=
  Template.BuiltIn.headerWith r.headerFill ++ String.join (r.fields.map r.fieldText)

variable {r : EmitRequest}

theorem render_header_context (subject : String) :
    Registry.builtIn.render .header subject r.headerContext
      = .ok (Template.BuiltIn.headerWith r.headerFill) := by
  apply Registry.render_header
  intro name member
  simp only [Template.BuiltIn.headerPieces, List.mem_cons, List.not_mem_nil, Piece.place.injEq, reduceCtorEq,
    false_or, or_false] at member
  rcases member with rfl | rfl <;> rfl

theorem render_field_context (subject : String) (index : Nat) (field : FieldDescriptor) :
    Registry.builtIn.render .accessors subject (r.fieldContext index field)
      = .ok (Template.BuiltIn.accessorsWith (r.fieldFill field)) := by
  apply Registry.render_accessors
  intro name member
  simp only [Template.BuiltIn.accessorsPieces, List.mem_cons, List.not_mem_nil, Piece.place.injEq, reduceCtorEq,
    false_or, or_false] at member
  rcases member with rfl | rfl | rfl | rfl | rfl | rfl | rfl | rfl | rfl | rfl <;> rfl

/-- The fields are written in order, each once. -/
theorem emit_fields_text (fields : List FieldDescriptor) (index : Nat) (before : String) :
    (r.emitFields .builtIn index fields (.keeping none before)).sink
        = .keeping none (before ++ String.join (fields.map r.fieldText))
      ∧ (r.emitFields .builtIn index fields (.keeping none before)).fault = none := by
  induction fields generalizing index before with
  | nil => simp [emitFields]
  | cons field rest ih =>
      have written : (Sink.keeping none before).putAll
          (fieldPieces (Template.BuiltIn.accessorsWith (r.fieldFill field)))
          = some (.keeping none (before ++ r.fieldText field)) := by
        rw [Sink.putAll_keeping]
        simp only [fieldPieces, List.foldl_cons, List.foldl_nil, fieldText]
        rw [String.append_assoc, String.append_assoc, Template.BuiltIn.accessors_kept]
      obtain ⟨sink, fault⟩ := ih (index + 1) (before ++ r.fieldText field)
      simp only [emitFields, render_field_context, Emission.write, written]
      refine ⟨?_, fault⟩
      rw [sink, List.map_cons, String.join_cons, String.append_assoc]

/-- With the built-in templates nothing but the text of the request is written, and without a fault. -/
theorem emit_text : (r.emit .builtIn (.keeping none "")).sink = .keeping none r.text
    ∧ (r.emit .builtIn (.keeping none "")).fault = none := by
  have written : (Sink.keeping none "").putAll (headerPieces (Template.BuiltIn.headerWith r.headerFill))
      = some (.keeping none (Template.BuiltIn.headerWith r.headerFill)) := by
    rw [Sink.putAll_keeping]
    simp only [headerPieces, List.foldl_cons, List.foldl_nil]
    rw [String.append_assoc, Template.BuiltIn.header_line_kept, String.empty_append]
  unfold emit
  rw [render_header_context]
  simp only [Emission.write, written]
  exact emit_fields_text r.fields 0 _

end EmitRequest

/-! A device that takes nothing. -/

namespace Sink

/-- A buffer that took a piece holds all its bytes. -/
theorem put_refusing {piece : String} {waiting : Nat} {after : Sink}
    (taken : (refusing waiting).put piece = some after) : after = refusing (waiting + piece.utf8ByteSize) := by
  unfold put at taken
  simp only at taken
  split at taken
  · exact (Option.some.inj taken).symm
  · exact absurd taken (by simp)

theorem put_all_refusing {pieces : List String} {waiting : Nat} {after : Sink}
    (taken : (refusing waiting).putAll pieces = some after) :
    after = refusing (waiting + (String.join pieces).utf8ByteSize) := by
  induction pieces generalizing waiting with
  | nil => simpa [putAll] using taken.symm
  | cons piece rest ih =>
      unfold putAll at taken ih
      rw [List.foldlM_cons] at taken
      obtain ⟨middle, first, others⟩ := Option.bind_eq_some_iff.mp taken
      rw [put_refusing first] at others
      rw [ih others, String.join_cons, String.utf8ByteSize_append, Nat.add_assoc]

end Sink

namespace EmitRequest

variable {r : EmitRequest} {registry : Registry}

/-- What waits for a device goes on waiting while fields are emitted. -/
theorem emit_fields_refusing {fields : List FieldDescriptor} {index waiting : Nat}
    (done : (r.emitFields registry index fields (.refusing waiting)).fault = none) :
    ∃ more, (r.emitFields registry index fields (.refusing waiting)).sink = .refusing (waiting + more) := by
  induction fields generalizing index waiting with
  | nil => exact ⟨0, rfl⟩
  | cons field rest ih =>
      simp only [emitFields] at done ⊢
      split at done
      · exact absurd done (by simp)
      · next accessors rendered =>
          simp only [Emission.write] at done ⊢
          split at done
          · next taken =>
              have held := Sink.put_all_refusing taken
              rw [held] at done
              obtain ⟨more, sink⟩ := ih done
              refine ⟨(String.join (fieldPieces accessors)).utf8ByteSize + more, ?_⟩
              rw [← Nat.add_assoc, held]
              exact sink
          · exact absurd done (by simp)

/-- Emitting to a device that takes nothing is a fault, whatever the templates are. -/
theorem emit_refusing (output : File.Path) : faultIn output (r.emit registry (.refusing 0)) ≠ none := by
  intro none
  have done : (r.emit registry (.refusing 0)).fault = .none := by
    unfold faultIn at none
    split at none
    · exact absurd none (by simp)
    · exact absurd none (by simp)
    · assumption
  have flushed : (r.emit registry (.refusing 0)).sink.isFlushed = true := by
    unfold faultIn at none
    rw [done] at none
    simp only at none
    split at none
    · assumption
    · exact absurd none (by simp)
  unfold emit at done flushed
  split at done
  · exact absurd done (by simp)
  · next header rendered =>
      rw [rendered] at flushed
      simp only [Emission.write] at done flushed
      split at done
      · next taken =>
          have held := Sink.put_all_refusing taken
          rw [taken, held] at flushed
          rw [held] at done
          obtain ⟨more, sink⟩ := emit_fields_refusing done
          -- the line break of the header waits already
          have waits : 1 ≤ (String.join (headerPieces header)).utf8ByteSize := by
            have line : "\n".utf8ByteSize = 1 := by decide
            simp only [headerPieces, String.join_cons, String.utf8ByteSize_append, line]
            omega
          simp only [sink, Sink.isFlushed, beq_iff_eq] at flushed
          omega
      · exact absurd done (by simp)

end EmitRequest

end Accessors
