import Accessors.Generation.Output
import Accessors.Proofs.ModulePath
import Accessors.Proofs.PathPieces
import Mathlib.Data.List.TakeDrop

/-!
Outputs that stand side by side. The outputs that are planned for the types of a crate are named by one pattern
in one directory: their paths differ in the last piece only, and have the same parent.
-/

namespace Accessors

namespace Text

theorem append_of_splitAtLast? {separator : Char} {text before after : List Char}
    (cut : splitAtLast? separator text = some (before, after)) : text = before ++ separator :: after := by
  unfold splitAtLast? at cut
  rw [List.span_eq_takeWhile_dropWhile] at cut
  split at cut
  · exact absurd cut (by simp)
  · next last c first shape =>
      obtain ⟨taken, dropped⟩ := Prod.mk.inj shape
      obtain ⟨rfl, rfl⟩ := Prod.mk.inj (Option.some.inj cut)
      have kept := List.head?_dropWhile_not (· != separator) text.reverse
      rw [dropped] at kept
      have same : c = separator := by simpa using kept
      have whole := List.takeWhile_append_dropWhile (p := (· != separator)) (l := text.reverse)
      rw [taken, dropped, same] at whole
      have reversed := congrArg List.reverse whole
      rw [List.reverse_reverse, List.reverse_append, List.reverse_cons, List.append_assoc] at reversed
      exact reversed.symm

theorem of_nat_ne_slash {n : Nat} (beyond : '/'.toNat < n) : Char.ofNat n ≠ '/' := by
  intro slash
  by_cases valid : n.isValidChar
  · have same : (Char.ofNat n).toNat = n := by
      rw [Char.ofNat, dif_pos valid]
      rfl
    rw [← same, slash] at beyond
    exact absurd beyond (by decide)
  · rw [Char.ofNat, dif_neg valid] at slash
    exact absurd slash (by decide)

theorem slash_of_lower_char {c : Char} (slash : lowerChar c = '/') : c = '/' := by
  unfold lowerChar at slash
  split at slash
  · next ascii =>
      have table : ∀ n < 0x80, (Char.ofNat n).toLower = '/' → n = '/'.toNat := by decide +kernel
      have same := table c.toNat ascii (by rw [Char.ofNat_toNat]; exact slash)
      rw [← Char.ofNat_toNat c, same, Char.ofNat_toNat]
  · split at slash
    · next first last step delta found =>
        -- no run of letters reaches down to the slash
        have above : loweringRuns.all (fun run => decide (0x2f < (run.1 : Int) + run.2.2.2)) = true := by
          decide +kernel
        have run := Array.all_eq_true'.mp above _ (Array.mem_of_find?_eq_some found)
        have bounds := Array.find?_some found
        simp only [Bool.and_eq_true, decide_eq_true_eq] at run bounds
        have image : '/'.toNat < ((c.toNat : Int) + delta).toNat := by
          have code : '/'.toNat = 0x2f := rfl
          omega
        exact absurd slash (of_nat_ne_slash image)
    · exact slash

theorem slashless_of_lower {text : String} (plain : '/' ∉ text.toList) : '/' ∉ (lower text).toList := by
  have after (before rest : List Char) (plain : '/' ∉ rest) : '/' ∉ lowerAfter before rest := by
    induction rest generalizing before with
    | nil => exact List.not_mem_nil
    | cons c rest ih =>
        have differs : c ≠ '/' := fun same => plain (by rw [same]; exact List.mem_cons_self)
        have later := ih (c :: before) fun member => plain (List.mem_cons_of_mem c member)
        rw [lowerAfter]
        intro member
        rcases List.mem_append.mp member with here | there
        · split at here
          · exact absurd here (by decide)
          · split at here
            · split at here <;> exact absurd here (by decide)
            · exact differs (slash_of_lower_char (List.mem_singleton.mp here).symm)
        · exact later there
  unfold lower
  rw [String.toList_ofList]
  exact after [] text.toList plain

end Text

namespace File

/-- Nothing, or what ends in a slash: what may stand in front of a name. -/
def Led (front : List Char) : Prop := front = [] ∨ ∃ before, front = before ++ ['/']

theorem split_at_name {front : List Char} (led : Led front) :
    ∃ before, ∀ {name : List Char}, '/' ∉ name → Text.splitAt '/' (front ++ name) = before ++ [name] := by
  rcases led with rfl | ⟨before, rfl⟩
  · exact ⟨[], fun plain => Text.splitAt_of_notMem plain⟩
  · refine ⟨Text.splitAt '/' before, fun plain => ?_⟩
    rw [List.append_assoc, List.singleton_append, Text.splitAt_append, Text.splitAt_of_notMem plain]

/-- In front of a name a path is taken apart in the same way whatever the name is. -/
theorem Split.of_text_name {front : List Char} (led : Led front) :
    ∃ anchor before, ∀ {name : List Char}, '/' ∉ name → name ≠ ['.'] →
      ofText (front ++ name) = ⟨anchor, before ++ [name]⟩ := by
  obtain ⟨whole, split⟩ := split_at_name led
  rcases led with rfl | ⟨text, rfl⟩
  · refine ⟨[], whole, fun {name} plain solid => ?_⟩
    rw [List.nil_append] at *
    unfold ofText
    split
    · exact absurd List.mem_cons_self plain
    · exact absurd rfl solid
    · exact absurd (List.mem_cons_of_mem _ List.mem_cons_self) plain
    · rw [← split plain, List.nil_append]
  · have cut (inner name : List Char) (plain : '/' ∉ name) :
        Text.splitAt '/' (inner ++ '/' :: name) = Text.splitAt '/' inner ++ [name] := by
      rw [Text.splitAt_append, Text.splitAt_of_notMem plain]
    have shape (name : List Char) : text ++ ['/'] ++ name = text ++ '/' :: name := by simp
    -- the anchor is told by the first characters: those of the text, or the text and the slash behind it
    by_cases rooted : ∃ inner, text = '/' :: inner
    · obtain ⟨inner, rfl⟩ := rooted
      refine ⟨['/'], Text.splitAt '/' inner, fun {name} plain _ => ?_⟩
      rw [shape, ← cut inner name plain]
      rfl
    · by_cases dotted : ∃ inner, text = '.' :: '/' :: inner
      · obtain ⟨inner, rfl⟩ := dotted
        refine ⟨['.'], [] :: Text.splitAt '/' inner, fun {name} plain _ => ?_⟩
        rw [shape, List.cons_append, List.cons_append, List.cons_append, ← cut inner name plain]
        rfl
      · cases text with
        | nil =>
            refine ⟨['/'], [], fun {name} plain _ => ?_⟩
            rw [shape, List.nil_append, ← Text.splitAt_of_notMem plain]
            rfl
        | cons c rest =>
            by_cases dot : c = '.' ∧ rest = []
            · obtain ⟨rfl, rfl⟩ := dot
              refine ⟨['.'], [[]], fun {name} plain _ => ?_⟩
              rw [shape, ← Text.splitAt_of_notMem plain]
              rfl
            · refine ⟨[], whole, fun {name} plain _ => ?_⟩
              have pieces := split plain
              rw [shape] at pieces ⊢
              rw [← pieces]
              unfold ofText
              split
              · next same => exact absurd ⟨rest, congrArg (· :: rest) (List.cons.inj same).1⟩ rooted
              · next same => exact absurd (List.cons.inj same).2 (by simp)
              · next same =>
                  obtain ⟨first, later⟩ := List.cons.inj same
                  cases rest with
                  | nil => exact absurd ⟨first, rfl⟩ dot
                  | cons d inner =>
                      have second := (List.cons.inj later).1
                      exact absurd ⟨inner, by rw [first, second]⟩ dotted
              · rfl

namespace Path

variable {p q : Path}

theorem parent_of_split {anchor name : List Char} {before : List (List Char)}
    (shape : p.split = ⟨anchor, before ++ [name]⟩) (part : Split.isFiller name = false) :
    p.parent? = some (ofSplit (Split.trimmed ⟨anchor, before⟩)) := by
  have kept : p.split.trimmed = ⟨anchor, before ++ [name]⟩ := by
    rw [shape]
    unfold Split.trimmed
    simp [part]
  unfold parent?
  simp only [kept]
  rw [if_neg (by simp), List.dropLast_concat]

/-- Two paths with one parent that differ in their last piece. -/
structure Beside (p q : Path) : Prop where
  absolute : p.isAbsolute = q.isAbsolute
  parent : p.parent? = q.parent?
  front : (Text.splitAt '/' p.text.toList).dropLast = (Text.splitAt '/' q.text.toList).dropLast
  apart : (Text.splitAt '/' p.text.toList).getLast? ≠ (Text.splitAt '/' q.text.toList).getLast?

theorem Beside.symm (beside : p.Beside q) : q.Beside p :=
  ⟨beside.absolute.symm, beside.parent.symm, beside.front.symm, beside.apart.symm⟩

theorem beside_of_names {front first second : List Char} (led : Led front) (textP : p.text.toList = front ++ first)
    (textQ : q.text.toList = front ++ second) (plain : '/' ∉ first) (plain' : '/' ∉ second)
    (part : Split.isFiller first = false) (part' : Split.isFiller second = false) (differ : first ≠ second) :
    p.Beside q := by
  have dotless {name : List Char} (part : Split.isFiller name = false) : name ≠ [] ∧ name ≠ ['.'] := by
    constructor <;> (intro same; rw [same] at part; exact absurd part (by decide))
  obtain ⟨before, cut⟩ := split_at_name led
  obtain ⟨anchor, pieces, apart⟩ := Split.of_text_name led
  have splitP : p.split = ⟨anchor, pieces ++ [first]⟩ := by
    rw [split, textP]
    exact apart plain (dotless part).2
  have splitQ : q.split = ⟨anchor, pieces ++ [second]⟩ := by
    rw [split, textQ]
    exact apart plain' (dotless part').2
  constructor
  · unfold isAbsolute
    rw [textP, textQ]
    rcases led with rfl | ⟨text, rfl⟩
    · have relative {name : List Char} (plain : '/' ∉ name) (part : Split.isFiller name = false) :
          (([] ++ name).head? == some '/') = false := by
        obtain ⟨c, rest, shape⟩ := List.exists_cons_of_ne_nil (dotless part).1
        have differs : c ≠ '/' := fun same => plain (by rw [shape, same]; exact List.mem_cons_self)
        simp [shape, differs]
      rw [relative plain part, relative plain' part']
    · cases text <;> rfl
  · rw [parent_of_split splitP part, parent_of_split splitQ part']
  · rw [textP, textQ, cut plain, cut plain', List.dropLast_concat, List.dropLast_concat]
  · rw [textP, textQ, cut plain, cut plain', List.getLast?_concat, List.getLast?_concat]
    exact fun same => differ (Option.some.inj same)

/-- The names that are read from a path that is read from another have one text in front of them. -/
theorem join_join_name (p q : Path) :
    ∃ front, Led front ∧ ∀ {name : String}, '/' ∉ name.toList →
      (p.join (q.join ⟨name⟩)).text.toList = front ++ name.toList := by
  cases absolute : q.isAbsolute with
  | true =>
      refine ⟨q.lead, q.lead_shape, fun plain => ?_⟩
      have inner := relative_of_slashless plain
      rw [join_of_absolute ((absolute_join inner).trans absolute), join_text inner]
  | false =>
      refine ⟨p.lead ++ q.lead, ?_, fun plain => ?_⟩
      · rcases q.lead_shape with bare | ⟨before, shape⟩
        · rw [bare, List.append_nil]
          exact p.lead_shape
        · rw [shape, ← List.append_assoc]
          exact Or.inr ⟨p.lead ++ before, rfl⟩
      · have inner := relative_of_slashless plain
        rw [join_text ((absolute_join inner).trans absolute), join_text inner, List.append_assoc]

theorem with_file_name_shape (p : Path) : ∃ base : Path, ∀ name, p.withFileName name = base.join ⟨name⟩ := by
  unfold withFileName
  cases p.fileName? with
  | none => exact ⟨p, fun _ => rfl⟩
  | some last => exact ⟨p.parent?.getD empty, fun _ => rfl⟩

theorem file_name_slashless {name : List Char} (named : p.fileName? = some name) : '/' ∉ name := by
  have last : p.split.trimmed.pieces.getLast? = some name := (Option.filter_eq_some_iff.mp named).1
  obtain ⟨fillers, pieces, _⟩ := p.split.trimmed_pieces
  have listed : name ∈ (Split.ofText p.text.toList).pieces := by
    have shape : (Split.ofText p.text.toList).pieces = p.split.pieces := rfl
    rw [shape, pieces]
    exact List.mem_append_left _ (List.mem_of_getLast? last)
  exact Split.of_text_plain listed

theorem split_name_slashless {name : List Char} (plain : '/' ∉ name) :
    '/' ∉ (splitName name).1 ∧ ∀ extension, (splitName name).2 = some extension → '/' ∉ extension := by
  unfold splitName
  split
  · exact ⟨plain, fun _ none => absurd none (by simp)⟩
  · next stem extension _ cut =>
      have shape := Text.append_of_splitAtLast? cut
      rw [shape] at plain
      refine ⟨fun member => plain (List.mem_append_left _ member), fun other same => ?_⟩
      rw [← Option.some.inj same]
      exact fun member => plain (List.mem_append_right _ (List.mem_cons_of_mem _ member))
  · exact ⟨plain, fun _ none => absurd none (by simp)⟩

end Path

end File

/-- The name of an output is one piece of a path. -/
theorem output_name_plain {source : File.Path} {typeName : String} (plain : '/' ∉ typeName.toList) :
    '/' ∉ (outputName source typeName).toList ∧ File.Split.isFiller (outputName source typeName).toList = false := by
  have stem : '/' ∉ source.fileStem?.getD [] := by
    unfold File.Path.fileStem?
    cases named : source.fileName? with
    | none => exact List.not_mem_nil
    | some name => exact (File.Path.split_name_slashless (File.Path.file_name_slashless named)).1
  have extension : '/' ∉ ((source.extension?.map String.ofList).getD defaultExtension).toList := by
    unfold File.Path.extension?
    cases named : source.fileName? with
    | none => decide
    | some name =>
        have parts := (File.Path.split_name_slashless (File.Path.file_name_slashless named)).2
        simp only [Option.bind_some]
        cases cut : (File.Path.splitName name).2 with
        | none => decide
        | some extension =>
            rw [Option.map_some, Option.getD_some, String.toList_ofList]
            exact parts extension cut
  have lowered := Text.slashless_of_lower plain
  constructor
  · unfold outputName
    simp only [String.toList_append, String.toList_ofList, List.mem_append, not_or]
    exact ⟨⟨⟨⟨⟨⟨stem, by decide⟩, lowered⟩, by decide⟩, by decide⟩, by decide⟩, extension⟩
  · apply Bool.eq_false_iff.mpr
    intro filler
    have mark : '_' ∈ (outputName source typeName).toList := by
      unfold outputName
      simp
    rcases Bool.or_eq_true_iff.mp filler with empty | dot
    · rw [beq_iff_eq.mp empty] at mark
      exact absurd mark (by decide)
    · rw [beq_iff_eq.mp dot] at mark
      exact absurd mark (by decide)

/-- Outputs that are planned for two types stand side by side, unless they are one. -/
theorem planned_outputs_beside {config : Config} {invocation : Invocation} {first second : String}
    (plain : '/' ∉ first.toList) (plain' : '/' ∉ second.toList)
    (differ : plannedOutput config invocation first ≠ plannedOutput config invocation second) :
    (plannedOutput config invocation first).Beside (plannedOutput config invocation second) := by
  obtain ⟨base, named⟩ := invocation.sourceFile.with_file_name_shape
  obtain ⟨front, led, texts⟩ := config.outputDir.join_join_name base
  obtain ⟨plainName, part⟩ := @output_name_plain invocation.sourceFile first plain
  obtain ⟨plainName', part'⟩ := @output_name_plain invocation.sourceFile second plain'
  have text : (plannedOutput config invocation first).text.toList
      = front ++ (outputName invocation.sourceFile first).toList := by
    unfold plannedOutput outputPath
    rw [named]
    exact texts plainName
  have text' : (plannedOutput config invocation second).text.toList
      = front ++ (outputName invocation.sourceFile second).toList := by
    unfold plannedOutput outputPath
    rw [named]
    exact texts plainName'
  apply File.Path.beside_of_names led text text' plainName plainName' part part'
  intro same
  apply differ
  apply File.Path.ext_text
  rw [text, text', same]

end Accessors
