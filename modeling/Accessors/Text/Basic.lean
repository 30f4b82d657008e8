/-!
Operations on text as a list of characters: cutting a leading word, replacing every occurrence of a
pattern from left to right, and splitting at a separator. Splitting and joining undo each other, and a
text that holds no occurrence of a pattern is unchanged by replacing it.
-/

namespace Accessors.Text

/-- Cuts `start` off the front of a text that begins with it. -/
def cutStart? : List Char → List Char → Option (List Char)
  | [], text => some text
  | _ :: _, [] => none
  | p :: start, c :: text => if p = c then cutStart? start text else none

theorem cutStart?_append (start text : List Char) :
    cutStart? start (start ++ text) = some text := by
  induction start with
  | nil => cases text <;> rfl
  | cons p start ih => simp [cutStart?, ih]

/-- What was cut off stands in front of what is left. -/
theorem append_of_cutStart? {start text rest : List Char} (cut : cutStart? start text = some rest) :
    text = start ++ rest := by
  induction start generalizing text with
  | nil => simpa [cutStart?] using cut
  | cons p start ih =>
      cases text with
      | nil => simp [cutStart?] at cut
      | cons c text =>
          by_cases same : p = c
          · rw [cutStart?, if_pos same] at cut
            rw [same, List.cons_append, ih cut]
          · rw [cutStart?, if_neg same] at cut
            exact absurd cut (by simp)

/-- Whether `pattern` occurs somewhere in a text. -/
def occurs (pattern : List Char) : List Char → Bool
  | [] => pattern.isEmpty
  | c :: text => pattern.isPrefixOf (c :: text) || occurs pattern text

/-- Replaces the occurrences of `pattern` from left to right; they do not overlap. The counter holds how
many characters of the last occurrence are still to be passed over. -/
def replaceFrom (pattern image : List Char) : Nat → List Char → List Char
  | _, [] => []
  | passing + 1, _ :: text => replaceFrom pattern image passing text
  | 0, c :: text =>
      if pattern.isPrefixOf (c :: text) then
        image ++ replaceFrom pattern image (pattern.length - 1) text
      else
        c :: replaceFrom pattern image 0 text

/-- Replaces every occurrence of a non-empty pattern. -/
def replaceAll (pattern image text : List Char) : List Char :=
  replaceFrom pattern image 0 text

theorem replaceAll_of_not_occurs {pattern image : List Char} {text : List Char}
    (absent : occurs pattern text = false) : replaceAll pattern image text = text := by
  unfold replaceAll
  induction text with
  | nil => rfl
  | cons c text ih =>
      simp only [occurs, Bool.or_eq_false_iff] at absent
      simp [replaceFrom, absent.1, ih absent.2]

/-- The pieces between separators; a text without a separator is one piece. -/
def splitAt (separator : Char) : List Char → List (List Char)
  | [] => [[]]
  | c :: text =>
      if c = separator then [] :: splitAt separator text
      else
        match splitAt separator text with
        | [] => [[c]]
        | piece :: pieces => (c :: piece) :: pieces

/-- Writes the pieces with the separator between them. -/
def joinWith (separator : List Char) : List (List Char) → List Char
  | [] => []
  | [piece] => piece
  | piece :: next :: pieces => piece ++ separator ++ joinWith separator (next :: pieces)

theorem splitAt_ne_nil (separator : Char) (text : List Char) : splitAt separator text ≠ [] := by
  cases text with
  | nil => simp [splitAt]
  | cons c text =>
      simp only [splitAt]
      split
      · simp
      · split <;> simp

theorem joinWith_splitAt (separator : Char) (text : List Char) :
    joinWith [separator] (splitAt separator text) = text := by
  induction text with
  | nil => rfl
  | cons c text ih =>
      simp only [splitAt]
      split
      · next hc =>
        cases hs : splitAt separator text with
        | nil => exact absurd hs (splitAt_ne_nil separator text)
        | cons piece pieces =>
            rw [hs] at ih
            simp [joinWith, ih, hc]
      · cases hs : splitAt separator text with
        | nil => exact absurd hs (splitAt_ne_nil separator text)
        | cons piece pieces =>
            rw [hs] at ih
            cases pieces <;> simp_all [joinWith]

/-- A separator ends the pieces before it. -/
theorem splitAt_append (separator : Char) (before after : List Char) :
    splitAt separator (before ++ separator :: after)
      = splitAt separator before ++ splitAt separator after := by
  induction before with
  | nil => simp [splitAt]
  | cons c text ih =>
      simp only [List.cons_append, splitAt]
      split
      · rw [ih, List.cons_append]
      · rw [ih]
        cases pieces : splitAt separator text with
        | nil => exact absurd pieces (splitAt_ne_nil separator text)
        | cons piece rest => rfl

theorem splitAt_of_notMem {separator : Char} {text : List Char} (absent : separator ∉ text) :
    splitAt separator text = [text] := by
  induction text with
  | nil => rfl
  | cons c text ih =>
      have differs : c ≠ separator := fun same => absent (by rw [same]; exact List.mem_cons_self)
      have later : separator ∉ text := fun member => absent (List.mem_cons_of_mem c member)
      simp only [splitAt, if_neg differs, ih later]

theorem notMem_of_mem_splitAt {separator : Char} {text piece : List Char}
    (member : piece ∈ splitAt separator text) : separator ∉ piece := by
  induction text generalizing piece with
  | nil =>
      rw [splitAt, List.mem_singleton] at member
      rw [member]
      exact List.not_mem_nil
  | cons c text ih =>
      simp only [splitAt] at member
      split at member
      · rcases List.mem_cons.mp member with same | later
        · rw [same]
          exact List.not_mem_nil
        · exact ih later
      · next differs =>
        cases pieces : splitAt separator text with
        | nil => exact absurd pieces (splitAt_ne_nil separator text)
        | cons first rest =>
            rw [pieces] at member ih
            rcases List.mem_cons.mp member with same | later
            · rw [same]
              have absent := ih List.mem_cons_self
              simp [absent, Ne.symm differs]
            · exact ih (List.mem_cons_of_mem first later)

theorem joinWith_append (separator : List Char) {first second : List (List Char)} (someFirst : first ≠ [])
    (someSecond : second ≠ []) :
    joinWith separator (first ++ second) = joinWith separator first ++ separator ++ joinWith separator second := by
  induction first with
  | nil => exact absurd rfl someFirst
  | cons piece rest ih =>
      cases rest with
      | nil =>
          cases second with
          | nil => exact absurd rfl someSecond
          | cons next more => rfl
      | cons next more =>
          have inner := ih (List.cons_ne_nil next more)
          simp only [List.cons_append, joinWith, List.append_assoc] at inner ⊢
          rw [inner]

/-- Pieces without the separator are read back from the text that joins them. -/
theorem splitAt_joinWith {separator : Char} {pieces : List (List Char)} (some : pieces ≠ [])
    (plain : ∀ piece ∈ pieces, separator ∉ piece) : splitAt separator (joinWith [separator] pieces) = pieces := by
  induction pieces with
  | nil => exact absurd rfl some
  | cons piece rest ih =>
      have first := splitAt_of_notMem (plain piece List.mem_cons_self)
      cases rest with
      | nil => exact first
      | cons next more =>
          have inner := ih (List.cons_ne_nil next more)
            (fun other member => plain other (List.mem_cons_of_mem piece member))
          rw [joinWith, List.append_assoc, List.singleton_append, splitAt_append, first, inner]
          rfl

/-- The parts before and after the last separator. -/
def splitAtLast? (separator : Char) (text : List Char) : Option (List Char × List Char) :=
  match text.reverse.span (· != separator) with
  | (_, []) => none
  | (after, _ :: before) => some (before.reverse, after.reverse)

/-- The parts before and after the first separator. -/
def splitAtFirst? (separator : Char) (text : List Char) : Option (List Char × List Char) :=
  match text.span (· != separator) with
  | (_, []) => none
  | (before, _ :: after) => some (before, after)

/-- Writes strings with a separator between them. -/
def join (separator : String) (pieces : List String) : String :=
  String.intercalate separator pieces

end Accessors.Text
