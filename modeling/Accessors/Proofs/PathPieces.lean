import Accessors.File.Tree

/-!
The pieces of paths that stand above or beside one another. The path of a directory is the front of every path
below it, up to a slash, so its pieces come first among theirs. A path that is read from another begins with
that one, and goes on with its own pieces.
-/

namespace Accessors.File

namespace Split

/-- Behind the pieces that are kept stand pieces that are no parts. -/
theorem trimmed_pieces (s : Split) :
    ∃ fillers, s.pieces = s.trimmed.pieces ++ fillers ∧ ∀ piece ∈ fillers, isFiller piece = true := by
  refine ⟨(s.pieces.reverse.takeWhile isFiller).reverse, ?_, ?_⟩
  · have whole := List.takeWhile_append_dropWhile (p := isFiller) (l := s.pieces.reverse)
    have reversed := congrArg List.reverse whole
    rw [List.reverse_append, List.reverse_reverse] at reversed
    exact reversed.symm
  · intro piece member
    exact List.all_eq_true.mp List.all_takeWhile piece (List.mem_reverse.mp member)

theorem trimmed_last {s : Split} {before : List (List Char)} {last : List Char}
    (ends : s.trimmed.pieces = before ++ [last]) : isFiller last = false := by
  have shape : s.pieces.reverse.dropWhile isFiller = last :: before.reverse := by
    have reversed := congrArg List.reverse ends
    simpa [trimmed] using reversed
  have kept := List.head?_dropWhile_not isFiller s.pieces.reverse
  rw [shape] at kept
  simpa using kept

theorem of_text_plain {path piece : List Char} (member : piece ∈ (ofText path).pieces) : '/' ∉ piece := by
  unfold ofText at member
  split at member
  · exact Text.notMem_of_mem_splitAt member
  · rw [List.mem_singleton.mp member]
    exact List.not_mem_nil
  · rcases List.mem_cons.mp member with same | later
    · rw [same]
      exact List.not_mem_nil
    · exact Text.notMem_of_mem_splitAt later
  · exact Text.notMem_of_mem_splitAt member

end Split

namespace Path

variable {p q up other : Path}

theorem ext_text (same : p.text.toList = q.text.toList) : p = q := by
  cases p
  cases q
  exact congrArg mk (String.toList_inj.mp same)

/-- A path goes on after another one: with a slash, and pieces of which one is a part. -/
def GoesOn (up p : Path) : Prop :=
  ∃ rest, p.text.toList = up.text.toList ++ '/' :: rest
    ∧ ∃ middle last fillers, Text.splitAt '/' rest = middle ++ last :: fillers
      ∧ Split.isFiller last = false ∧ ∀ piece ∈ fillers, Split.isFiller piece = true

/-- A parent is nothing, or the first pieces of the path, with all parts but the last one. -/
theorem parent_pieces (above : p.parent? = some up) :
    up.isEmpty = true ∨ ∃ front between last fillers, p.split.pieces = front ++ (between ++ last :: fillers)
      ∧ up.text.toList = p.split.anchor ++ Text.joinWith ['/'] front
      ∧ Split.isFiller last = false ∧ ∀ piece ∈ fillers, Split.isFiller piece = true := by
  unfold parent? at above
  simp only at above
  split at above
  · split at above
    · left
      rw [← Option.some.inj above]
      rfl
    · exact absurd above (by simp)
  · next parts =>
      right
      obtain ⟨fillers, pieces, blank⟩ := p.split.trimmed_pieces
      have some : p.split.trimmed.pieces ≠ [] := fun none => parts (by rw [none]; rfl)
      obtain ⟨before, last, ends⟩ : ∃ before last, p.split.trimmed.pieces = before ++ [last] :=
        ⟨_, _, (List.dropLast_concat_getLast some).symm⟩
      obtain ⟨between, cut, _⟩ := (⟨p.split.anchor, before⟩ : Split).trimmed_pieces
      refine ⟨(⟨p.split.anchor, before⟩ : Split).trimmed.pieces, between, last, fillers, ?_, ?_,
        Split.trimmed_last ends, blank⟩
      · rw [pieces, ends]
        simp only at cut
        rw [List.append_assoc, List.singleton_append, ← List.append_assoc, ← cut]
      · have anchor : p.split.trimmed.anchor = p.split.anchor := rfl
        rw [ends, List.dropLast_concat, anchor] at above
        rw [← Option.some.inj above]
        simp [ofSplit, Split.text, Split.trimmed]

/-- What stands in front of the first piece is the root, a dot, or nothing. -/
theorem anchor_shape {between fillers : List (List Char)} {last : List Char}
    (whole : p.split.pieces = between ++ last :: fillers) (upText : up.text.toList = p.split.anchor)
    (solid : Split.isFiller last = false) (blank : ∀ piece ∈ fillers, Split.isFiller piece = true) :
    up.isEmpty = true ∨ p.isAbsolute = true ∧ up.text = "/" ∨ up.GoesOn p := by
  have single (pieces : List (List Char)) (whole : [] :: pieces = between ++ last :: fillers) :
      ∃ more, pieces = more ++ last :: fillers := by
    cases between with
    | nil =>
        rw [← (List.cons.inj whole).1] at solid
        exact absurd solid (by decide)
    | cons first more => exact ⟨more, (List.cons.inj whole).2⟩
  unfold split Split.ofText at whole upText
  split at whole
  · next rest shape =>
      right; left
      simp only [shape] at upText
      refine ⟨?_, String.toList_inj.mp upText⟩
      unfold isAbsolute
      rw [shape]
      rfl
  · -- a single dot has no parts
    obtain ⟨more, none⟩ := single [] whole
    exact absurd none (by simp)
  · next rest shape =>
      right; right
      simp only [shape] at upText
      obtain ⟨more, parts⟩ := single _ whole
      refine ⟨rest, ?_, more, last, fillers, parts, solid, blank⟩
      rw [shape, upText]
      rfl
  · next rooted single dotted =>
      left
      split at upText
      · next rest shape => exact absurd shape (rooted rest)
      · next shape => exact absurd shape single
      · next rest shape => exact absurd shape (dotted rest)
      · exact String.isEmpty_iff.mpr (String.toList_inj.mp upText)

/-- A path with a parent goes on after it. Only nothing and the root stand in front of a path without a slash. -/
theorem parent_shape (above : p.parent? = some up) :
    up.isEmpty = true ∨ p.isAbsolute = true ∧ up.text = "/" ∨ up.GoesOn p := by
  rcases parent_pieces above with empty | ⟨front, between, last, fillers, whole, upText, solid, blank⟩
  · exact Or.inl empty
  · cases front with
    | nil =>
        rw [Text.joinWith, List.append_nil] at upText
        exact anchor_shape whole upText solid blank
    | cons first more =>
        right; right
        have nonempty : between ++ last :: fillers ≠ [] := by simp
        refine ⟨Text.joinWith ['/'] (between ++ last :: fillers), ?_, between, last, fillers, ?_, solid, blank⟩
        · have text : p.text.toList = p.split.text := (Split.text_ofText p.text.toList).symm
          rw [text, Split.text, whole, Text.joinWith_append _ (List.cons_ne_nil first more) nonempty, upText]
          simp
        · apply Text.splitAt_joinWith nonempty
          intro piece member
          have listed : piece ∈ (Split.ofText p.text.toList).pieces := by
            have shape : (Split.ofText p.text.toList).pieces = p.split.pieces := rfl
            rw [shape, whole]
            exact List.mem_append_right _ member
          exact Split.of_text_plain listed

theorem parent_length (above : p.parent? = some up) : up.text.length < p.text.length := by
  have has : ∀ text, text = "" ∨ text = "/" → p ≠ ⟨text⟩ := by
    intro text bare same
    have none : (⟨text⟩ : Path).parent? = .none := by rcases bare with rfl | rfl <;> decide
    rw [same, none] at above
    exact absurd above (by simp)
  rcases parent_shape above with empty | ⟨rooted, root⟩ | ⟨rest, front, _⟩
  · have none : up.text = "" := String.isEmpty_iff.mp empty
    rw [none]
    have some : p.text ≠ "" := fun bare => has "" (Or.inl rfl) (by rw [← bare])
    exact Nat.pos_of_ne_zero fun zero => some (String.length_eq_zero_iff.mp zero)
  · unfold isAbsolute at rooted
    cases chars : p.text.toList with
    | nil => rw [chars] at rooted; exact absurd rooted (by decide)
    | cons c rest =>
        rw [chars] at rooted
        have slash : c = '/' := by simpa using rooted
        cases rest with
        | nil =>
            rw [slash] at chars
            have bare : p.text = "/" := String.toList_inj.mp chars
            exact absurd (by rw [← bare]) (has "/" (Or.inr rfl))
        | cons next more =>
            have one : "/".length = 1 := by decide
            rw [root, one, ← String.length_toList (s := p.text), chars, List.length_cons, List.length_cons]
            omega
  · have lengths := congrArg List.length front
    simp only [List.length_append, List.length_cons, String.length_toList] at lengths
    omega

theorem last_part_unique {before other fillers others : List (List Char)} {last final : List Char}
    (same : before ++ last :: fillers = other ++ final :: others)
    (solid : Split.isFiller last = false) (blank : ∀ piece ∈ fillers, Split.isFiller piece = true)
    (solidOther : Split.isFiller final = false) (blankOther : ∀ piece ∈ others, Split.isFiller piece = true) :
    before = other := by
  rcases List.append_eq_append_iff.mp same with ⟨more, first, second⟩ | ⟨more, first, second⟩
  · cases more with
    | nil => rw [first, List.append_nil]
    | cons head tail =>
        have inside : final ∈ fillers := by
          rw [(List.cons.inj second).2]
          simp
        rw [blank final inside] at solidOther
        exact absurd solidOther (by simp)
  · cases more with
    | nil => rw [first, List.append_nil]
    | cons head tail =>
        have inside : last ∈ others := by
          rw [(List.cons.inj second).2]
          simp
        rw [blankOther last inside] at solid
        exact absurd solid (by simp)

/-- What stands in front of a path that is read from another one. -/
def lead (p : Path) : List Char :=
  if p.isEmpty || p.text.toList.getLast? == some '/' then p.text.toList else p.text.toList ++ ['/']

theorem join_text (relative : other.isAbsolute = false) :
    (p.join other).text.toList = p.lead ++ other.text.toList := by
  unfold join lead
  rw [relative, if_neg (by simp)]
  split
  · rw [String.toList_append]
  · rw [String.toList_append, String.toList_append]
    rfl

theorem lead_shape (p : Path) : p.lead = [] ∨ ∃ before, p.lead = before ++ ['/'] := by
  unfold lead
  split
  · next short =>
      rcases Bool.or_eq_true_iff.mp short with empty | slash
      · left
        have text : p.text = "" := String.isEmpty_iff.mp empty
        rw [text]
        rfl
      · right
        exact List.getLast?_eq_some_iff.mp (beq_iff_eq.mp slash)
  · exact Or.inr ⟨p.text.toList, rfl⟩

theorem absolute_join (relative : other.isAbsolute = false) : (p.join other).isAbsolute = p.isAbsolute := by
  have absolute (path : Path) : path.isAbsolute = (path.text.toList.head? == some '/') := rfl
  rw [absolute, join_text relative]
  cases chars : p.text.toList with
  | nil =>
      have empty : p.isEmpty = true := String.isEmpty_iff.mpr (String.toList_inj.mp chars)
      have bare : p.lead = [] := by
        unfold lead
        rw [empty, Bool.true_or, if_pos rfl, chars]
      rw [bare, List.nil_append, ← absolute, relative, absolute, chars]
      rfl
  | cons c rest =>
      have led : ∃ more, p.lead = c :: more := by
        unfold lead
        rw [chars]
        split
        · exact ⟨rest, rfl⟩
        · exact ⟨rest ++ ['/'], rfl⟩
      obtain ⟨more, led⟩ := led
      rw [led, absolute, chars]
      rfl

/-- All paths that are read from one begin with the same pieces. -/
theorem split_join (p : Path) :
    ∃ front, ∀ {other : Path}, other.isAbsolute = false →
      Text.splitAt '/' (p.join other).text.toList = front ++ Text.splitAt '/' other.text.toList := by
  rcases p.lead_shape with bare | ⟨before, shape⟩
  · refine ⟨[], fun relative => ?_⟩
    rw [join_text relative, bare]
    rfl
  · refine ⟨Text.splitAt '/' before, fun relative => ?_⟩
    rw [join_text relative, shape, List.append_assoc, List.singleton_append, Text.splitAt_append]

theorem relative_of_head {text : String} {c : Char} {rest : List Char} (shape : text.toList = c :: rest)
    (differs : c ≠ '/') : (⟨text⟩ : Path).isAbsolute = false := by
  unfold isAbsolute
  simp [shape, differs]

theorem relative_of_slashless {name : String} (plain : '/' ∉ name.toList) :
    (⟨name⟩ : Path).isAbsolute = false := by
  cases chars : name.toList with
  | nil =>
      unfold isAbsolute
      rw [chars]
      rfl
  | cons c rest =>
      exact relative_of_head chars fun same => plain (by rw [chars, same]; exact List.mem_cons_self)

theorem join_name {name : String} (some : name.toList ≠ []) (plain : '/' ∉ name.toList)
    (relative : other.isAbsolute = false) :
    (p.join ⟨name⟩).join other = p.join ⟨name ++ "/" ++ other.text⟩ := by
  have first : (p.join ⟨name⟩).text.toList = p.lead ++ name.toList := join_text (relative_of_slashless plain)
  obtain ⟨c, rest, chars⟩ := List.exists_cons_of_ne_nil some
  have led : (p.join ⟨name⟩).lead = p.lead ++ name.toList ++ ['/'] := by
    have ends : (p.join ⟨name⟩).text.toList.getLast? ≠ .some '/' := by
      intro last
      rw [first, List.getLast?_append, Option.or_eq_some_iff] at last
      rcases last with final | ⟨none, _⟩
      · exact plain (List.mem_of_getLast? final)
      · exact some (List.getLast?_eq_none_iff.mp none)
    have solid : (p.join ⟨name⟩).isEmpty = false := by
      apply Bool.eq_false_iff.mpr
      intro empty
      rw [String.isEmpty_iff.mp empty, chars] at first
      exact absurd first.symm (by simp)
    unfold lead
    rw [solid, if_neg (by simpa using ends), first]
    rfl
  have joined : (⟨name ++ "/" ++ other.text⟩ : Path).isAbsolute = false := by
    have shape : (name ++ "/" ++ other.text).toList = c :: (rest ++ '/' :: other.text.toList) := by simp [chars]
    exact relative_of_head shape fun same => plain (by rw [chars, same]; exact List.mem_cons_self)
  apply ext_text
  rw [join_text relative, led, join_text joined]
  simp

end Path

namespace Tree

variable {t : Tree} {p q : Path} {place : Place}

theorem path_fault_none :
    pathFault? p = none
      ↔ Char.ofNat 0 ∉ p.text.toList ∧ p.isEmpty = false ∧ p.text.utf8ByteSize ≤ longestPath := by
  unfold pathFault?
  by_cases nul : Char.ofNat 0 ∈ p.text.toList
  · simp [nul]
  · by_cases empty : p.isEmpty = true
    · simp [nul, empty]
    · simp [nul, empty]

/-- The front of a path that can be read can be read, unless it is nothing. -/
theorem path_fault_of_front {more : List Char} (sound : pathFault? p = none)
    (front : p.text.toList = q.text.toList ++ more) (some : q.isEmpty = false) : pathFault? q = none := by
  obtain ⟨nul, _, size⟩ := path_fault_none.mp sound
  have text : p.text = q.text ++ String.ofList more := by
    apply String.toList_inj.mp
    rw [front, String.toList_append, String.toList_ofList]
  rw [text, String.utf8ByteSize_append] at size
  rw [front] at nul
  exact path_fault_none.mpr ⟨fun member => nul (List.mem_append_left more member), some, by omega⟩

/-- Only slashes are taken off the end of a path, and not all of it. -/
theorem without_end_slash_shape (p : Path) :
    ∃ count, p.text.toList = (withoutEndSlash p).text.toList ++ List.replicate count '/'
      ∧ (p.isEmpty = false → (withoutEndSlash p).isEmpty = false) := by
  have whole := List.takeWhile_append_dropWhile (p := (· == '/')) (l := p.text.toList.reverse)
  have reversed := congrArg List.reverse whole
  rw [List.reverse_append, List.reverse_reverse] at reversed
  have slashes : p.text.toList.reverse.takeWhile (· == '/')
      = List.replicate (p.text.toList.reverse.takeWhile (· == '/')).length '/' := by
    apply List.eq_replicate_of_mem
    intro c member
    exact beq_iff_eq.mp (List.all_eq_true.mp List.all_takeWhile c member)
  unfold withoutEndSlash
  split
  · exact ⟨0, by simp, id⟩
  · next kept =>
      refine ⟨(p.text.toList.reverse.takeWhile (· == '/')).length, ?_, ?_⟩
      · rw [String.toList_ofList]
        rw [slashes, List.reverse_replicate] at reversed
        exact reversed.symm
      · intro _
        apply Bool.eq_false_iff.mpr
        intro empty
        have none := congrArg String.toList (String.isEmpty_iff.mp empty)
        rw [String.toList_ofList] at none
        exact kept none

theorem split_at_slashes (text : List Char) (count : Nat) :
    Text.splitAt '/' (text ++ List.replicate count '/')
      = Text.splitAt '/' text ++ List.replicate count [] := by
  induction count generalizing text with
  | zero => simp
  | succ count ih =>
      have inner := ih []
      rw [List.nil_append] at inner
      rw [List.replicate_succ, Text.splitAt_append, inner]
      rfl

end Tree

end Accessors.File
