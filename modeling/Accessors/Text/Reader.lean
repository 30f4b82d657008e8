import Accessors.Text.Basic

/-!
Reading text character by character. A reader takes characters off the front of a text or refuses it. Its
loops are bounded by the text ahead, since every round takes at least one character.
-/

namespace Accessors.Text

abbrev Reader := StateT (List Char) Option

namespace Reader

def refuse {α : Type} : Reader α := fun _ => none

/-- The next character, which is not taken. -/
def peek? : Reader (Option Char) := do
  return (← get).head?

def atEnd : Reader Bool := do
  return (← get).isEmpty

/-- Takes a character of a class. -/
def takeIf (p : Char → Bool) : Reader Char := do
  match ← get with
  | c :: rest =>
      if p c then
        set rest
        return c
      else refuse
  | [] => refuse

def takeWhile (p : Char → Bool) : Reader (List Char) := do
  let text ← get
  set (text.dropWhile p)
  return text.takeWhile p

/-- Takes as many characters of a class as asked. -/
def takeCount (p : Char → Bool) : Nat → Reader (List Char)
  | 0 => return []
  | n + 1 => do return (← takeIf p) :: (← takeCount p n)

/-- Takes the given characters. -/
def word (chars : List Char) : Reader Unit := do
  match cutStart? chars (← get) with
  | some rest => set rest
  | none => refuse

/-- Takes the given characters if they stand here. -/
def word? (chars : List Char) : Reader Bool := do
  match cutStart? chars (← get) with
  | some rest =>
      set rest
      return true
  | none => return false

/-- Whether the given characters stand here. -/
def ahead (chars : List Char) : Reader Bool := do
  return chars.isPrefixOf (← get)

/-- Runs a reader, or takes nothing if it refuses. -/
def attempt {α : Type} (p : Reader α) : Reader (Option α) := fun text =>
  match p text with
  | some (a, rest) => some (some a, rest)
  | none => some (none, text)

/-- The first reader that does not refuse. -/
def orElse {α : Type} (p q : Reader α) : Reader α := fun text =>
  match p text with
  | some found => some found
  | none => q text

/-- What a reader takes, as it stands in the text. -/
def spelling {α : Type} (p : Reader α) : Reader (List Char) := do
  let before ← get
  let _ ← p
  return before.take (before.length - (← get).length)

def repeatRounds {α : Type} (step : α → Reader (Option α)) : Nat → α → Reader α
  | 0, _ => refuse
  | rounds + 1, a => do
      match ← step a with
      | some b => repeatRounds step rounds b
      | none => return a

/-- Repeats a step on its own result until it has none. -/
def iterate {α : Type} (step : α → Reader (Option α)) (a : α) : Reader α := do
  repeatRounds step ((← get).length + 1) a

/-- Collects what a step yields until it yields nothing. -/
def collect {α : Type} (step : Reader (Option α)) : Reader (List α) := do
  let collected ← iterate (fun done => do
    match ← step with
    | some a => return some (a :: done)
    | none => return none) []
  return collected.reverse

/-- What a reader makes of a whole text. -/
def whole {α : Type} (p : Reader α) (text : List Char) : Option α :=
  match p text with
  | some (a, []) => some a
  | _ => none

end Reader

end Accessors.Text
