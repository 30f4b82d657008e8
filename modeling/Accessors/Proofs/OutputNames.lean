import Accessors.Proofs.PlannedOutputs
import Accessors.Proofs.ReferenceTexts

/-!
The names of outputs. The file with the accessors of a type stands beside the file that set generation off: its path is
that of the file with another last part. A path is taken apart in the same way when its last part is replaced, so the
directory is the same one, and the new name is split at the last dot again. What stands between the stem and the mark
tells the type, up to the case of its letters.
-/

namespace Accessors

namespace Text

theorem notMem_of_splitAtLast? {separator : Char} {text before after : List Char}
    (cut : splitAtLast? separator text = some (before, after)) : separator ∉ after := by
  unfold splitAtLast? at cut
  rw [List.span_eq_takeWhile_dropWhile] at cut
  split at cut
  · exact absurd cut (by simp)
  · next last c first shape =>
      obtain ⟨taken, _⟩ := Prod.mk.inj shape
      obtain ⟨_, rfl⟩ := Prod.mk.inj (Option.some.inj cut)
      intro member
      rw [← taken] at member
      have differs := List.all_eq_true.mp List.all_takeWhile separator (List.mem_reverse.mp member)
      exact absurd differs (by simp)

end Text

namespace File

namespace Split

/-- What a text is taken apart into: the pieces after a slash, those after a leading dot, or those of a text that
begins with neither. -/
inductive Legal : Split → Prop where
  | rooted (pieces : List (List Char)) : Legal ⟨['/'], pieces⟩
  | dotted (pieces : List (List Char)) : Legal ⟨['.'], [] :: pieces⟩
  | bare {first : List Char} {rest : List (List Char)} (dotless : first ≠ ['.']) (short : first = [] → rest = []) :
      Legal ⟨[], first :: rest⟩

theorem legal_of_text (path : List Char) : Legal (ofText path) := by
  unfold ofText
  split
  · exact Legal.rooted _
  · exact Legal.dotted []
  · exact Legal.dotted _
  · next rooted single dotted =>
      have whole := Text.joinWith_splitAt '/' path
      cases pieces : Text.splitAt '/' path with
      | nil => exact absurd pieces (Text.splitAt_ne_nil _ _)
      | cons first rest =>
          rw [pieces] at whole
          cases rest with
          | nil =>
              apply Legal.bare
              · intro dot
                rw [dot] at whole
                exact single whole.symm
              · exact fun _ => rfl
          | cons second more =>
              apply Legal.bare
              · intro dot
                rw [dot] at whole
                exact dotted _ whole.symm
              · intro empty
                rw [empty] at whole
                exact absurd whole.symm (rooted _)

/-- A text that is put together so is taken apart into the same pieces. -/
theorem of_text_text {s : Split} (legal : Legal s) (some : s.pieces ≠ []) (plain : ∀ piece ∈ s.pieces, '/' ∉ piece) :
    ofText s.text = s := by
  have apart := Text.splitAt_joinWith some plain
  cases legal with
  | rooted pieces =>
      have shape : text ⟨['/'], pieces⟩ = '/' :: Text.joinWith ['/'] pieces := rfl
      rw [shape, ofText, apart]
  | dotted pieces =>
      cases pieces with
      | nil => rfl
      | cons first rest =>
          have shape : text ⟨['.'], [] :: first :: rest⟩ = '.' :: '/' :: Text.joinWith ['/'] (first :: rest) := rfl
          have later := Text.splitAt_joinWith (List.cons_ne_nil first rest) fun piece member =>
            plain piece (List.mem_cons_of_mem _ member)
          rw [shape, ofText, later]
  | @bare first rest dotless short =>
      have shape : text ⟨[], first :: rest⟩ = Text.joinWith ['/'] (first :: rest) := rfl
      rw [shape]
      simp only at apart
      unfold ofText
      split
      · next inner same =>
          have pieces : Text.splitAt '/' ('/' :: inner) = [] :: Text.splitAt '/' inner := Text.splitAt_append '/' [] inner
          rw [same, pieces] at apart
          obtain ⟨empty, more⟩ := List.cons.inj apart
          exact absurd (more.trans (short empty.symm)) (Text.splitAt_ne_nil _ _)
      · next same =>
          rw [same] at apart
          exact absurd (List.cons.inj apart).1.symm dotless
      · next inner same =>
          have pieces : Text.splitAt '/' ('.' :: '/' :: inner) = ['.'] :: Text.splitAt '/' inner :=
            Text.splitAt_append '/' ['.'] inner
          rw [same, pieces] at apart
          exact absurd (List.cons.inj apart).1.symm dotless
      · rw [apart]

/-- Behind its first pieces a split may go on in another way. -/
theorem Legal.go_on {anchor : List Char} {front more other : List (List Char)} (legal : Legal ⟨anchor, front ++ more⟩)
    (some : front ≠ []) (goes : more ≠ []) : Legal ⟨anchor, front ++ other⟩ := by
  obtain ⟨first, rest, rfl⟩ := List.exists_cons_of_ne_nil some
  rw [List.cons_append] at *
  cases legal with
  | rooted => exact Legal.rooted _
  | dotted => exact Legal.dotted _
  | bare dotless short =>
      apply Legal.bare dotless
      intro empty
      exact absurd (List.append_eq_nil_iff.mp (short empty)).2 goes

theorem trimmed_of_last {anchor last : List Char} {before : List (List Char)} (part : isFiller last = false) :
    trimmed ⟨anchor, before ++ [last]⟩ = ⟨anchor, before ++ [last]⟩ := by
  simp [trimmed, part]

end Split

namespace Path

variable {p up : Path}

/-- The name of a file is the last piece of its path that is a part. -/
theorem pieces_of_named {name : List Char} (named : p.fileName? = some name) :
    ∃ front fillers, p.split.pieces = front ++ name :: fillers
      ∧ p.parent? = some (ofSplit (Split.trimmed ⟨p.split.anchor, front⟩))
      ∧ Split.isFiller name = false := by
  have last : p.split.trimmed.pieces.getLast? = some name := (Option.filter_eq_some_iff.mp named).1
  obtain ⟨front, ends⟩ := List.getLast?_eq_some_iff.mp last
  obtain ⟨fillers, pieces, _⟩ := p.split.trimmed_pieces
  refine ⟨front, fillers, ?_, ?_, Split.trimmed_last ends⟩
  · rw [pieces, ends, List.append_assoc, List.singleton_append]
  · have some : p.split.trimmed.pieces.isEmpty = false := by
      rw [ends]
      simp
    unfold parent?
    simp only [some]
    rw [if_neg (by simp), ends, List.dropLast_concat]
    rfl

/-- A path with a last piece that is a part is read on behind a slash. -/
theorem lead_of_split {anchor last : List Char} {before : List (List Char)} (part : Split.isFiller last = false)
    (plain : '/' ∉ last) :
    (ofSplit ⟨anchor, before ++ [last]⟩).lead = Split.text ⟨anchor, before ++ [last]⟩ ++ ['/'] := by
  have some : last ≠ [] := by
    intro empty
    rw [empty] at part
    exact absurd part (by decide)
  obtain ⟨shown, text⟩ : ∃ shown, Split.text ⟨anchor, before ++ [last]⟩ = shown ++ last := by
    cases before with
    | nil => exact ⟨anchor, rfl⟩
    | cons first rest =>
        refine ⟨anchor ++ (Text.joinWith ['/'] (first :: rest) ++ ['/']), ?_⟩
        rw [Split.text, Text.joinWith_append _ (List.cons_ne_nil first rest) (List.cons_ne_nil last [])]
        simp [Text.joinWith]
  have chars : (ofSplit ⟨anchor, before ++ [last]⟩).text.toList = shown ++ last := by
    rw [ofSplit, String.toList_ofList, text]
  have solid : (ofSplit ⟨anchor, before ++ [last]⟩).isEmpty = false := by
    apply Bool.eq_false_iff.mpr
    intro empty
    rw [String.isEmpty_iff.mp empty] at chars
    exact some (List.append_eq_nil_iff.mp chars.symm).2
  have ends : ((ofSplit ⟨anchor, before ++ [last]⟩).text.toList.getLast? == Option.some '/') = false := by
    apply beq_eq_false_iff_ne.mpr
    intro slash
    rw [chars, List.getLast?_append, Option.or_eq_some_iff] at slash
    rcases slash with final | ⟨none, _⟩
    · exact plain (List.mem_of_getLast? final)
    · exact some (List.getLast?_eq_none_iff.mp none)
  unfold lead
  rw [solid, ends, if_neg (by simp), chars, text]

/-- What a name is read from is a directory with the name behind it: the parts of the directory, or its anchor alone. -/
theorem lead_of_directory {anchor name : List Char} {front more : List (List Char)}
    (legal : Split.Legal ⟨anchor, front ++ more⟩) (goes : more ≠ []) (slashless : ∀ piece ∈ front, '/' ∉ piece)
    (part : Split.isFiller name = false) :
    ∃ before, Split.Legal ⟨anchor, before ++ [name]⟩ ∧ (∀ piece ∈ before, '/' ∉ piece)
      ∧ Split.trimmed ⟨anchor, before⟩ = Split.trimmed ⟨anchor, front⟩
      ∧ (ofSplit (Split.trimmed ⟨anchor, front⟩)).lead ++ name = Split.text ⟨anchor, before ++ [name]⟩ := by
  obtain ⟨between, whole, _⟩ := (⟨anchor, front⟩ : Split).trimmed_pieces
  simp only at whole
  rcases List.eq_nil_or_concat (Split.trimmed ⟨anchor, front⟩).pieces with none | ⟨before, last, ends⟩
  · have directory : Split.trimmed ⟨anchor, front⟩ = ⟨anchor, []⟩ := by
      rw [← none]
      rfl
    rw [directory]
    generalize front ++ more = pieces at legal
    cases legal with
    | rooted => exact ⟨[], Split.Legal.rooted [name], by simp, rfl, rfl⟩
    | dotted => exact ⟨[[]], Split.Legal.dotted [name], by simp, rfl, rfl⟩
    | bare =>
        refine ⟨[], Split.Legal.bare ?_ fun _ => rfl, by simp, rfl, rfl⟩
        intro dot
        rw [dot] at part
        exact absurd part (by decide)
  · rw [List.concat_eq_append] at ends
    have solid : Split.isFiller last = false := Split.trimmed_last ends
    have directory : Split.trimmed ⟨anchor, front⟩ = ⟨anchor, before ++ [last]⟩ := by
      rw [← ends]
      rfl
    rw [ends] at whole
    have shown {piece : List Char} (member : piece ∈ before ++ [last]) : '/' ∉ piece := by
      apply slashless
      rw [whole]
      exact List.mem_append_left _ member
    have some : before ++ [last] ≠ [] := by simp
    refine ⟨before ++ [last], ?_, fun _ => shown, ?_, ?_⟩
    · rw [whole, List.append_assoc] at legal
      exact legal.go_on some fun none => goes (List.append_eq_nil_iff.mp none).2
    · rw [directory, Split.trimmed_of_last solid]
    · have single : Text.joinWith ['/'] [name] = name := rfl
      rw [directory, lead_of_split solid (shown (by simp)), Split.text, Split.text,
        Text.joinWith_append _ some (List.cons_ne_nil name []), single]
      simp

/-- Another name in the directory of a file is the last part of a path with the same parent. -/
theorem named_beside {file : List Char} {name : String} (named : p.fileName? = some file) (above : p.parent? = some up)
    (plain : '/' ∉ name.toList) (part : Split.isFiller name.toList = false) :
    (up.join ⟨name⟩).parent? = some up ∧ (up.join ⟨name⟩).split.last? = some name.toList := by
  obtain ⟨front, fillers, pieces, parent, _⟩ := pieces_of_named named
  obtain rfl : up = ofSplit (Split.trimmed ⟨p.split.anchor, front⟩) := Option.some.inj (above.symm.trans parent)
  have legal : Split.Legal ⟨p.split.anchor, front ++ file :: fillers⟩ := by
    rw [← pieces]
    exact Split.legal_of_text p.text.toList
  have slashless : ∀ piece ∈ front, '/' ∉ piece := by
    intro piece member
    have listed : piece ∈ p.split.pieces := by
      rw [pieces]
      exact List.mem_append_left _ member
    exact Split.of_text_plain listed
  obtain ⟨before, stands, clean, directory, text⟩ := lead_of_directory legal (List.cons_ne_nil file fillers) slashless part
  have shape : ((ofSplit (Split.trimmed ⟨p.split.anchor, front⟩)).join ⟨name⟩).split
      = ⟨p.split.anchor, before ++ [name.toList]⟩ := by
    rw [split, join_text (relative_of_slashless plain), text]
    apply Split.of_text_text stands
    · simp
    · intro piece member
      rcases List.mem_append.mp member with inner | last
      · exact clean piece inner
      · rw [List.mem_singleton.mp last]
        exact plain
  constructor
  · rw [parent_of_split shape part, directory]
  · rw [shape, Split.last?, Split.trimmed_of_last part, List.getLast?_concat]

/-- What a name is split into, and what it is not split into. -/
theorem split_name_cases (name : List Char) :
    splitName name = (name, none)
      ∨ ∃ stem extension, splitName name = (stem, some extension) ∧ name = stem ++ '.' :: extension ∧ '.' ∉ extension := by
  unfold splitName
  split
  · exact Or.inl rfl
  · next stem extension _ cut =>
      right
      exact ⟨stem, extension, rfl, Text.append_of_splitAtLast? cut, Text.notMem_of_splitAtLast? cut⟩
  · exact Or.inl rfl

theorem split_name_of_dot {stem extension : List Char} (some : stem ≠ []) (plain : '.' ∉ extension) :
    splitName (stem ++ '.' :: extension) = (stem, .some extension) := by
  obtain ⟨c, rest, rfl⟩ := List.exists_cons_of_ne_nil some
  rw [splitName, Text.splitAtLast?_append _ plain]

end Path

end File

section

variable {source : File.Path} {file : List Char}

/-- The stem of an output. -/
def outputStem (source : File.Path) (typeName : String) : List Char :=
  source.fileStem?.getD [] ++ '_' :: ((Text.lower typeName).toList ++ '_' :: generatedMark.toList)

theorem output_name_shape (source : File.Path) (typeName : String) :
    (outputName source typeName).toList
      = outputStem source typeName ++ '.' :: source.extension?.getD defaultExtension.toList := by
  unfold outputName outputStem
  cases source.extension? <;> simp

/-- An output is split at the dot in front of its extension. -/
theorem split_output_name (source : File.Path) (typeName : String) :
    File.Path.splitName (outputName source typeName).toList
      = (outputStem source typeName, some (source.extension?.getD defaultExtension.toList)) := by
  rw [output_name_shape]
  apply File.Path.split_name_of_dot
  · unfold outputStem
    simp
  · have default : '.' ∉ defaultExtension.toList := by decide
    unfold File.Path.extension?
    cases source.fileName? with
    | none => exact default
    | some name =>
        rcases File.Path.split_name_cases name with whole | ⟨stem, extension, cut, _, plain⟩
        · rw [Option.bind_some, whole]
          exact default
        · rw [Option.bind_some, cut]
          exact plain

/-- The names of two outputs of one file are the same exactly if the names of the types are in lower case. -/
theorem output_names_same_iff (source : File.Path) (first second : String) :
    outputName source first = outputName source second ↔ Text.lower first = Text.lower second := by
  constructor
  · intro same
    have chars := congrArg String.toList same
    rw [output_name_shape, output_name_shape, List.append_left_inj, outputStem, outputStem, List.append_right_inj,
      List.cons.injEq, List.append_left_inj] at chars
    exact String.toList_inj.mp chars.2
  · intro same
    unfold outputName
    rw [same]

/-- The name of an output is longer than that of the file. -/
theorem output_name_differs (named : source.fileName? = some file) (typeName : String) :
    (outputName source typeName).toList ≠ file := by
  intro same
  have lengths := congrArg List.length same
  rw [output_name_shape, outputStem] at lengths
  unfold File.Path.fileStem? File.Path.extension? at lengths
  rw [named, Option.map_some, Option.getD_some, Option.bind_some] at lengths
  rcases File.Path.split_name_cases file with whole | ⟨stem, extension, cut, shape, _⟩
  · rw [whole] at lengths
    simp at lengths
  · rw [cut, shape] at lengths
    simp at lengths
    omega

end

namespace OutputSample

def source : File.Path := ⟨"./api.d//model.v2.rs/"⟩

abbrev name : Ident := ⟨"Todo", by decide +kernel⟩
abbrev upper : Ident := ⟨"TODO", by decide +kernel⟩

theorem named : source.fileName? = some "model.v2.rs".toList := by decide +kernel

end OutputSample

end Accessors
