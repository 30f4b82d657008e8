import Accessors.File.Tree

/-!
Patterns for places of files. A pattern is a list of steps, and the step `**` stands for any directories. In another
step a star stands for any characters and a question mark for one. Brackets stand for one of the characters in them,
or behind an exclamation mark for one of the others; braces stand for one of the patterns in them; a backslash takes
its meaning from the next character. A step that cannot be read like this fits nothing.
-/

namespace Accessors.File.Glob

/-- The rests of a list, from the whole list to nothing. -/
def rests {α : Type} : List α → List (List α)
  | [] => [[]]
  | a :: rest => (a :: rest) :: rests rest

theorem mem_rests {α : Type} {l rest : List α} : rest ∈ rests l ↔ rest <:+ l := by
  induction l with
  | nil => rw [rests, List.mem_singleton, List.suffix_nil]
  | cons a l ih => rw [rests, List.mem_cons, ih, List.suffix_cons_iff]

/-- One of the characters of some ranges, or one that is in none of them. -/
structure Letter where
  outside : Bool
  ranges : List (Char × Char)
  deriving DecidableEq, Repr, Inhabited

namespace Letter

def any : Letter := ⟨true, []⟩

def char (c : Char) : Letter := ⟨false, [(c, c)]⟩

def fits (l : Letter) (c : Char) : Bool :=
  l.outside != l.ranges.any fun (low, high) => low ≤ c && c ≤ high

end Letter

/-- A part of a step: any characters, or one. -/
inductive Part where
  | run
  | letter (l : Letter)
  deriving DecidableEq, Repr, Inhabited

/-- Where the reading of a step stands: between two parts, behind a backslash, behind an opening bracket, or in
brackets, with the ranges up to there, the last one first, and a hyphen that asks for the end of that one. -/
inductive Mode where
  | plain
  | escaped
  | bracket
  | inside (outside : Bool) (ranges : List (Char × Char)) (hyphen : Bool)

/-- An open brace: what can stand before it, and its patterns that are read. -/
structure Brace where
  before : List (List Part)
  branches : List (List Part)

/-- What can stand before and in a brace. A pattern of nothing is left out. -/
def Brace.close (b : Brace) (last : List (List Part)) : List (List Part) :=
  match (b.branches ++ last).filter (· ≠ []) with
  | [] => b.before
  | branches => b.before.flatMap fun front => branches.map (front ++ ·)

def add (part : Part) (ways : List (List Part)) : List (List Part) := ways.map (· ++ [part])

/-- Reads the ways to fit a step, one for each choice in braces. -/
def read : Mode → List Brace → List (List Part) → List Char → Option (List (List Part))
  | .plain, [], ways, [] => some ways
  | .escaped, [], ways, [] => some ways
  | _, _, _, [] => none
  | .plain, braces, ways, c :: step =>
      match c, braces with
      | '*', _ => read .plain braces (add .run ways) step
      | '?', _ => read .plain braces (add (.letter .any) ways) step
      | '\\', _ => read .escaped braces ways step
      | '[', _ => read .bracket braces ways step
      | '\x7b', _ => read .plain (⟨ways, []⟩ :: braces) [[]] step
      | '\x7d', [] => none
      | '\x7d', b :: braces => read .plain braces (b.close ways) step
      | ',', b :: braces => read .plain (⟨b.before, b.branches ++ ways⟩ :: braces) [[]] step
      | c, _ => read .plain braces (add (.letter (.char c)) ways) step
  | .escaped, braces, ways, c :: step => read .plain braces (add (.letter (.char c)) ways) step
  | .bracket, braces, ways, c :: step =>
      if c = '!' ∨ c = '^' then read (.inside true [] false) braces ways step
      else read (.inside false [(c, c)] false) braces ways step
  | .inside outside [] _, braces, ways, c :: step => read (.inside outside [(c, c)] false) braces ways step
  | .inside outside ((low, high) :: more) hyphen, braces, ways, c :: step =>
      if c = ']' then
        -- a hyphen that stands last is one of the characters
        let ranges := if hyphen then ('-', '-') :: (low, high) :: more else (low, high) :: more
        read .plain braces (add (.letter ⟨outside, ranges⟩) ways) step
      else if hyphen then
        if c < low then none else read (.inside outside ((low, c) :: more) false) braces ways step
      else if c = '-' then read (.inside outside ((low, high) :: more) true) braces ways step
      else read (.inside outside ((c, c) :: (low, high) :: more) false) braces ways step

/-- Whether a name is made of what some parts stand for. -/
def fitsParts : List Part → List Char → Bool
  | [], name => name.isEmpty
  | .run :: parts, name => (rests name).any (fitsParts parts)
  | .letter l :: parts, c :: name => l.fits c && fitsParts parts name
  | .letter _ :: _, [] => false

/-- Whether a name fits a step. -/
def fitsName (step name : List Char) : Bool :=
  match read .plain [] [[]] step with
  | some ways => ways.any (fitsParts · name)
  | none => false

/-- Choices and classes of characters in one step. -/
example : fitsName "a\x7bb,[0-9]*\x7d.tera".toList "a7x.tera".toList = true
    ∧ fitsName "[!a-c]?".toList "b1".toList = false := by decide

/-- Whether the names that lead to a file fit the steps of a pattern. -/
def fits : List (List Char) → Place → Bool
  | [], names => names.isEmpty
  | step :: steps, names =>
      if step = ['*', '*'] then (rests names).any (fits steps)
      else
        match names with
        | name :: names => fitsName step name && fits steps names
        | [] => false

/-- The files below a directory that fit a pattern. -/
def filesMatching (t : Tree) (directory : Place) (steps : List (List Char)) : List (Place × Content) :=
  (t.filesBelow directory).filter fun (names, _) => fits steps names

section

variable {step : List Char} {steps : List (List Char)} {names : Place}

theorem fits_anywhere : fits (['*', '*'] :: steps) names = true ↔ ∃ rest, rest <:+ names ∧ fits steps rest = true := by
  have any : fits (['*', '*'] :: steps) names = (rests names).any (fits steps) := if_pos rfl
  rw [any, List.any_eq_true]
  apply exists_congr
  intro rest
  rw [mem_rests]

theorem fits_step (other : step ≠ ['*', '*']) : fits (step :: steps) names = true
    ↔ ∃ name rest, names = name :: rest ∧ fitsName step name = true ∧ fits steps rest = true := by
  cases names with
  | nil =>
      have none : fits (step :: steps) [] = false := if_neg other
      simp [none]
  | cons name rest =>
      have one : fits (step :: steps) (name :: rest) = (fitsName step name && fits steps rest) := if_neg other
      rw [one, Bool.and_eq_true]
      constructor
      · intro both
        exact ⟨name, rest, rfl, both⟩
      · rintro ⟨_, _, same, both⟩
        obtain ⟨rfl, rfl⟩ := List.cons.inj same
        exact both

end

end Accessors.File.Glob
