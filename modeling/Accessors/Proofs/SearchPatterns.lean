import Accessors.File.Glob

/-!
What patterns fit. A step without marks fits its own text and nothing else, and behind a star it is the end of a name.
Every step of a pattern but `**` takes a name of its own, so a pattern does not fit fewer names than it has such
steps, and where it has no others before its last one, the last name alone decides.
-/

namespace Accessors

namespace Text

/-- Two texts are split where they meet like one. -/
theorem splitAt_meeting {separator : Char} {before after last next : List Char} {firsts rest : List (List Char)}
    (front : splitAt separator before = firsts ++ [last]) (back : splitAt separator after = next :: rest) :
    splitAt separator (before ++ after) = firsts ++ (last ++ next) :: rest := by
  induction before generalizing firsts last with
  | nil =>
      have shape : firsts = [] ∧ last = [] := by
        cases firsts with
        | nil => exact ⟨rfl, (List.singleton_inj.mp front).symm⟩
        | cons piece firsts => simp [splitAt] at front
      rw [shape.1, shape.2]
      exact back
  | cons c before ih =>
      rw [splitAt] at front
      by_cases cut : c = separator
      · rw [if_pos cut] at front
        cases firsts with
        | nil => exact absurd (List.cons.inj front).2 (splitAt_ne_nil separator before)
        | cons piece firsts =>
            obtain ⟨blank, later⟩ := List.cons.inj front
            rw [List.cons_append, splitAt, if_pos cut, ih later, ← blank]
            rfl
      · rw [if_neg cut] at front
        obtain ⟨piece, pieces, shape⟩ := List.exists_cons_of_ne_nil (splitAt_ne_nil separator before)
        rw [shape] at front
        cases firsts with
        | nil =>
            obtain ⟨same, none⟩ := List.cons.inj front
            rw [none] at shape
            have inner : splitAt separator (before ++ after) = [] ++ (piece ++ next) :: rest := ih shape
            rw [List.cons_append, splitAt, if_neg cut, inner, ← same]
            rfl
        | cons first firsts =>
            obtain ⟨same, later⟩ := List.cons.inj front
            rw [later] at shape
            have inner : splitAt separator (before ++ after) = (piece :: firsts) ++ (last ++ next) :: rest := ih shape
            rw [List.cons_append, splitAt, if_neg cut, inner, ← same]
            rfl

end Text

namespace File.Glob

/-! One step. -/

/-- The characters that do not stand for themselves outside of braces. -/
def marks : List Char := "*?\\[\x7b\x7d".toList

/-- A step that holds no marks. -/
def isPlain (step : List Char) : Bool := step.all fun c => !marks.contains c

theorem letter_fits {c d : Char} : (Letter.char c).fits d = true ↔ d = c := by
  constructor
  · intro fits
    have both : c ≤ d ∧ d ≤ c := by simpa [Letter.fits, Letter.char] using fits
    exact Char.le_antisymm both.2 both.1
  · intro same
    rw [same]
    simp [Letter.fits, Letter.char]

theorem fits_letters {word name : List Char} :
    fitsParts (word.map fun c => .letter (.char c)) name = true ↔ name = word := by
  induction word generalizing name with
  | nil => simp [fitsParts]
  | cons c word ih =>
      cases name with
      | nil => simp [fitsParts]
      | cons d name => rw [List.map_cons, fitsParts, Bool.and_eq_true, letter_fits, ih, List.cons.injEq]

section

variable {step name : List Char}

theorem read_plain (plain : isPlain step = true) (ways : List (List Part)) :
    read .plain [] ways step = some (ways.map (· ++ step.map fun c => .letter (.char c))) := by
  induction step generalizing ways with
  | nil => simp [read]
  | cons c step ih =>
      unfold isPlain at plain
      rw [List.all_cons, Bool.and_eq_true] at plain
      obtain ⟨here, rest⟩ := plain
      have later := ih rest
      have letter : read .plain [] ways (c :: step) = read .plain [] (add (.letter (.char c)) ways) step := by
        have other : c ∉ marks := by simpa using here
        simp only [marks, String.reduceToList, List.mem_cons, List.not_mem_nil, or_false, not_or] at other
        obtain ⟨star, question, backslash, bracket, opening, closing⟩ := other
        rw [read]
        all_goals simp [star, question, backslash, bracket, opening, closing]
      rw [letter, later, add, List.map_map]
      apply congrArg some
      apply congrArg (ways.map ·)
      funext way
      rw [Function.comp_apply, List.map_cons, List.append_assoc]
      rfl

/-- A step without marks fits its own text only. -/
theorem fits_own_text (plain : isPlain step = true) : fitsName step name = true ↔ name = step := by
  unfold fitsName
  rw [read_plain plain, ← fits_letters]
  simp

/-- A star and a text without marks fit the names that end with the text. -/
theorem fits_ending (plain : isPlain step = true) : fitsName ('*' :: step) name = true ↔ step <:+ name := by
  have reading : read .plain [] [[]] ('*' :: step) = read .plain [] [[.run]] step := rfl
  unfold fitsName
  rw [reading, read_plain plain]
  have one : fitsParts (.run :: step.map fun c => .letter (.char c)) name = true ↔ step <:+ name := by
    rw [fitsParts, List.any_eq_true]
    constructor
    · rintro ⟨rest, member, fits⟩
      rw [← fits_letters.mp fits]
      exact mem_rests.mp member
    · intro ends
      exact ⟨step, mem_rests.mpr ends, fits_letters.mpr rfl⟩
  rw [← one]
  simp

end

/-! All steps of a pattern. -/

section

variable {step : List Char} {steps before : List (List Char)} {names : Place}

/-- Every step but `**` fits one of the names. -/
theorem fit_of_step (other : step ≠ ['*', '*']) (listed : step ∈ steps) (fit : fits steps names = true) :
    ∃ name ∈ names, fitsName step name = true := by
  induction steps generalizing names with
  | nil => cases listed
  | cons first later ih =>
      by_cases any : first = ['*', '*']
      · rw [any] at fit listed
        obtain ⟨rest, behind, fit⟩ := fits_anywhere.mp fit
        obtain ⟨name, member, here⟩ := ih ((List.mem_cons.mp listed).resolve_left other) fit
        exact ⟨name, behind.subset member, here⟩
      · obtain ⟨name, rest, rfl, here, fit⟩ := (fits_step any).mp fit
        cases List.mem_cons.mp listed with
        | inl same =>
            rw [same]
            exact ⟨name, List.mem_cons_self, here⟩
        | inr more =>
            obtain ⟨found, member, there⟩ := ih more fit
            exact ⟨found, List.mem_cons_of_mem name member, there⟩

/-- There are no fewer names than steps that take one. -/
theorem steps_le_names (fit : fits steps names = true) : (steps.filter (· ≠ ['*', '*'])).length ≤ names.length := by
  induction steps generalizing names with
  | nil => exact Nat.zero_le _
  | cons first later ih =>
      by_cases any : first = ['*', '*']
      · rw [any] at fit
        obtain ⟨rest, behind, fit⟩ := fits_anywhere.mp fit
        have shorter := behind.length_le
        have bound := ih fit
        rw [any, List.filter_cons_of_neg (by simp)]
        omega
      · obtain ⟨name, rest, rfl, _, fit⟩ := (fits_step any).mp fit
        have bound := ih fit
        rw [List.filter_cons_of_pos (by simpa using any), List.length_cons, List.length_cons]
        omega

/-- Behind nothing but steps that take any names, the last name decides. -/
theorem fits_last (other : step ≠ ['*', '*']) (any : ∀ first ∈ before, first = ['*', '*']) :
    fits (before ++ [['*', '*'], step]) names = true
      ↔ ∃ name, names.getLast? = some name ∧ fitsName step name = true := by
  induction before generalizing names with
  | nil =>
      have single (rest : Place) : fits [step] rest = true ↔ ∃ name, rest = [name] ∧ fitsName step name = true := by
        rw [fits_step other]
        simp [fits]
      rw [List.nil_append, fits_anywhere]
      constructor
      · rintro ⟨rest, ⟨front, whole⟩, fit⟩
        obtain ⟨name, rfl, here⟩ := (single rest).mp fit
        exact ⟨name, List.getLast?_eq_some_iff.mpr ⟨front, whole.symm⟩, here⟩
      · rintro ⟨name, ends, here⟩
        obtain ⟨front, whole⟩ := List.getLast?_eq_some_iff.mp ends
        exact ⟨[name], ⟨front, whole.symm⟩, (single [name]).mpr ⟨name, rfl, here⟩⟩
  | cons first before ih =>
      have later := fun step member => any step (List.mem_cons_of_mem first member)
      rw [List.cons_append, any first List.mem_cons_self, fits_anywhere]
      constructor
      · rintro ⟨rest, behind, fit⟩
        obtain ⟨name, ends, here⟩ := (ih later).mp fit
        obtain ⟨front, whole⟩ := List.getLast?_eq_some_iff.mp ends
        obtain ⟨more, longer⟩ := behind
        rw [whole, ← List.append_assoc] at longer
        exact ⟨name, List.getLast?_eq_some_iff.mpr ⟨more ++ front, longer.symm⟩, here⟩
      · intro found
        exact ⟨names, List.suffix_refl names, (ih later).mpr found⟩

end

end File.Glob

end Accessors
