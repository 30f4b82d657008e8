import Accessors.Token.Literal

/-!
Identifiers and lifetimes. An identifier keeps the `r#` it was written with, and it is a whole identifier: a
lexer that meets its text takes all of it. A lifetime is an identifier after an apostrophe.
-/

namespace Accessors

namespace Lexer

/-- The names that may not be written with the raw mark. -/
def neverRaw : List String := ["_", "super", "self", "Self", "crate"]

/-- Length of the identifier at the front of a text, raw mark included; zero if there is none. -/
def identLength (text : List Char) : Nat :=
  match text with
  | 'r' :: '#' :: rest =>
      match Literal.identLength rest with
      | 0 => 0
      | n + 1 => if String.ofList (rest.take (n + 1)) ∈ neverRaw then 0 else n + 3
  | _ => Literal.identLength text

end Lexer

/-! What is taken off the front of a text is a whole identifier by itself. -/

namespace Literal

open Text (isIdentStart isIdentContinue)

theorem plain_ident_length_take (text : List Char) :
    identLength (text.take (identLength text)) = identLength text := by
  cases text with
  | nil => rfl
  | cons c rest =>
      by_cases opens : isIdentStart c = true
      · have taken : rest.take (rest.takeWhile isIdentContinue).length = rest.takeWhile isIdentContinue :=
          (List.prefix_iff_eq_take.mp (List.takeWhile_prefix _)).symm
        have again : (rest.takeWhile isIdentContinue).takeWhile isIdentContinue
            = rest.takeWhile isIdentContinue := by
          have all := List.all_eq_true.mp (List.all_takeWhile (p := isIdentContinue) (l := rest))
          have whole := @List.takeWhile_append_of_pos _ isIdentContinue _ [] all
          simpa using whole
        simp [identLength, opens, Nat.add_comm 1, taken, again]
      · simp [identLength, opens]

theorem plain_ident_length_le (text : List Char) : identLength text ≤ text.length := by
  cases text with
  | nil => exact Nat.le_refl 0
  | cons c rest =>
      have bound := (List.takeWhile_prefix (p := isIdentContinue) (l := rest)).length_le
      simp only [identLength, List.length_cons]
      split <;> omega

/-- A text that is one identifier as a whole holds only characters of identifiers. -/
theorem plain_ident_chars {text : List Char} (whole : identLength text = text.length) :
    ∀ c ∈ text, isIdentContinue c = true := by
  cases text with
  | nil => simp
  | cons first rest =>
      by_cases opens : isIdentStart first = true
      · have all : (rest.takeWhile isIdentContinue).length = rest.length := by
          simp only [identLength, opens, if_true, List.length_cons] at whole
          omega
        have kept : rest.takeWhile isIdentContinue = rest :=
          (List.takeWhile_prefix isIdentContinue).eq_of_length all
        have following := List.all_eq_true.mp (List.all_takeWhile (p := isIdentContinue) (l := rest))
        rw [kept] at following
        intro c member
        rcases List.mem_cons.mp member with same | later
        · rw [same]
          exact Text.ident_continue_of_start opens
        · exact following c later
      · simp [identLength, opens] at whole

/-- An identifier ends where a character follows that may not continue it. -/
theorem plain_ident_length_append {text : List Char} (whole : identLength text = text.length) {c : Char}
    (ends : isIdentContinue c = false) (rest : List Char) : identLength (text ++ c :: rest) = text.length := by
  cases text with
  | nil =>
      have closed : isIdentStart c = false := by
        cases opens : isIdentStart c with
        | false => rfl
        | true => exact absurd (Text.ident_continue_of_start opens) (by simp [ends])
      simp [identLength, closed]
  | cons first text =>
      have opens : isIdentStart first = true := by
        cases opens : isIdentStart first with
        | true => rfl
        | false => simp [identLength, opens] at whole
      have following : ∀ d ∈ text, isIdentContinue d = true := fun d member =>
        plain_ident_chars whole d (List.mem_cons_of_mem first member)
      rw [List.cons_append, identLength, if_pos opens, List.takeWhile_append_of_pos following]
      simp [ends, Nat.add_comm 1]

end Literal

namespace Lexer

theorem ident_length_plain {text : List Char} (plain : ∀ rest, text ≠ 'r' :: '#' :: rest) :
    identLength text = Literal.identLength text := by
  unfold identLength
  split
  · next rest => exact absurd rfl (plain rest)
  · rfl

theorem ident_length_raw {rest : List Char} {n : Nat} (found : Literal.identLength rest = n + 1)
    (allowed : String.ofList (rest.take (n + 1)) ∉ neverRaw) :
    identLength ('r' :: '#' :: rest) = n + 3 := by
  simp [identLength, found, allowed]

theorem ident_length_take (text : List Char) :
    identLength (text.take (identLength text)) = identLength text := by
  by_cases none : identLength text = 0
  · rw [none]
    rfl
  by_cases raw : ∃ rest, text = 'r' :: '#' :: rest
  · obtain ⟨rest, rfl⟩ := raw
    cases found : Literal.identLength rest with
    | zero => exact absurd (by simp [identLength, found]) none
    | succ n =>
        have allowed : String.ofList (rest.take (n + 1)) ∉ neverRaw := fun forbidden =>
          none (by simp [identLength, found, forbidden])
        have again := Literal.plain_ident_length_take rest
        rw [found] at again
        rw [ident_length_raw found allowed]
        exact ident_length_raw again (by rwa [List.take_take, Nat.min_self])
  · have plain : ∀ rest, text ≠ 'r' :: '#' :: rest := fun rest same => raw ⟨rest, same⟩
    rw [ident_length_plain plain, ident_length_plain, Literal.plain_ident_length_take]
    intro rest shape
    -- a raw mark in what was taken stands in the text itself
    obtain ⟨more, whole⟩ := List.take_prefix (Literal.identLength text) text
    rw [shape] at whole
    exact plain _ whole.symm

theorem ident_length_le (text : List Char) : identLength text ≤ text.length := by
  unfold identLength
  split
  · next rest =>
      have bound := Literal.plain_ident_length_le rest
      split
      · omega
      · next n found =>
          simp only [List.length_cons]
          split <;> omega
  · exact Literal.plain_ident_length_le text

end Lexer

/-- An identifier as it is written, raw mark included. -/
structure Ident where
  text : String
  /-- The text is not empty, and all of it is one identifier. -/
  whole : text.toList ≠ [] ∧ Lexer.identLength text.toList = text.toList.length
  deriving DecidableEq, Repr

namespace Ident

instance : Inhabited Ident := ⟨⟨"_", by decide⟩⟩

/-- The identifier at the front of a text. -/
def front (text : List Char) (opens : Lexer.identLength text ≠ 0) : Ident where
  text := String.ofList (text.take (Lexer.identLength text))
  whole := by
    have bound := Lexer.ident_length_le text
    have again := Lexer.ident_length_take text
    have size : (text.take (Lexer.identLength text)).length = Lexer.identLength text := by
      simp [Nat.min_eq_left bound]
    refine ⟨?_, ?_⟩
    · intro empty
      rw [String.toList_ofList] at empty
      rw [empty] at size
      exact opens size.symm
    · rw [String.toList_ofList, again, size]

/-- Only the raw mark brings a character into an identifier that may not stand in one. -/
theorem chars (name : Ident) : ∀ c ∈ name.text.toList, c = '#' ∨ Text.isIdentContinue c = true := by
  have whole := name.whole.2
  intro c member
  by_cases raw : ∃ rest, name.text.toList = 'r' :: '#' :: rest
  · obtain ⟨rest, shape⟩ := raw
    rw [shape] at whole member
    have inner : Literal.identLength rest = rest.length := by
      simp only [Lexer.identLength, List.length_cons] at whole
      split at whole
      · omega
      · split at whole <;> omega
    rcases List.mem_cons.mp member with same | member
    · rw [same]
      exact Or.inr (by decide)
    · rcases List.mem_cons.mp member with same | member
      · exact Or.inl same
      · exact Or.inr (Literal.plain_ident_chars inner c member)
  · have plain : ∀ rest, name.text.toList ≠ 'r' :: '#' :: rest := fun rest same => raw ⟨rest, same⟩
    rw [Lexer.ident_length_plain plain] at whole
    exact Or.inr (Literal.plain_ident_chars whole c member)

@[ext] theorem ext {a b : Ident} (same : a.text = b.text) : a = b := by
  cases a
  cases b
  cases same
  rfl

end Ident

/-- A lifetime: an identifier after an apostrophe. -/
structure Lifetime where
  name : Ident
  deriving DecidableEq, Repr, Inhabited

def Lifetime.text (l : Lifetime) : String := "'" ++ l.name.text

end Accessors
