import Accessors.Text.Basic

/-!
Paths as text. A path keeps its spelling, since it is shown as it was written; its parts are read off the
text. Repeated slashes, slashes at the end and dots between slashes separate parts and are none themselves,
except for a dot in front of a relative path.

A text is taken apart into an anchor (a slash, a leading dot, or nothing) and the pieces between the
slashes after it, and `Split.text` puts the two together again.
-/

namespace Accessors.File

/-- A path by its spelling. -/
structure Path where
  text : String
  deriving DecidableEq, Repr, Inhabited

/-- A path taken apart: what it is anchored to, and the pieces after that. -/
structure Split where
  anchor : List Char
  pieces : List (List Char)
  deriving DecidableEq, Repr

namespace Split

/-- Takes a path apart. -/
def ofText : List Char → Split
  | '/' :: rest => ⟨['/'], Text.splitAt '/' rest⟩
  | ['.'] => ⟨['.'], [[]]⟩
  | '.' :: '/' :: rest => ⟨['.'], [] :: Text.splitAt '/' rest⟩
  | text => ⟨[], Text.splitAt '/' text⟩

def text (s : Split) : List Char :=
  s.anchor ++ Text.joinWith ['/'] s.pieces

/-- A piece that is no part of the path. -/
def isFiller (piece : List Char) : Bool :=
  piece == [] || piece == ['.']

/-- Drops what follows the last part. -/
def trimmed (s : Split) : Split :=
  ⟨s.anchor, (s.pieces.reverse.dropWhile isFiller).reverse⟩

/-- The last part. -/
def last? (s : Split) : Option (List Char) := s.trimmed.pieces.getLast?

theorem text_ofText (path : List Char) : (ofText path).text = path := by
  unfold ofText text
  split
  · simp [Text.joinWith_splitAt]
  · rfl
  · next rest =>
      cases h : Text.splitAt '/' rest with
      | nil => exact absurd h (Text.splitAt_ne_nil _ _)
      | cons piece pieces =>
          have whole := Text.joinWith_splitAt '/' rest
          rw [h] at whole
          simp [Text.joinWith, whole]
  · simp [Text.joinWith_splitAt]

end Split

namespace Path

def split (p : Path) : Split := Split.ofText p.text.toList

def ofSplit (s : Split) : Path := ⟨String.ofList s.text⟩

def empty : Path := ⟨""⟩

def isEmpty (p : Path) : Bool := p.text.isEmpty

def isAbsolute (p : Path) : Bool := p.text.toList.head? == some '/'

/-- The path without its last part. The root and the empty path have none. -/
def parent? (p : Path) : Option Path :=
  let s := p.split.trimmed
  if s.pieces.isEmpty then
    if s.anchor = ['.'] then some empty else none
  else some (ofSplit (Split.trimmed ⟨s.anchor, s.pieces.dropLast⟩))

/-- The last part, unless it is two dots. -/
def fileName? (p : Path) : Option (List Char) :=
  p.split.last?.filter (· != ['.', '.'])

/-- A file name at its last dot: what is before it, and what is after it if there is a dot that is not the
first character. -/
def splitName (name : List Char) : List Char × Option (List Char) :=
  match Text.splitAtLast? '.' name with
  | some ([], _) => (name, none)
  | some (stem, extension) => (stem, some extension)
  | none => (name, none)

def fileStem? (p : Path) : Option (List Char) :=
  p.fileName?.map fun name => (splitName name).1

def extension? (p : Path) : Option (List Char) :=
  p.fileName?.bind fun name => (splitName name).2

/-- The other path read from this one. An absolute path stands for itself. -/
def join (p other : Path) : Path :=
  if other.isAbsolute then other
  else if p.isEmpty || p.text.toList.getLast? == some '/' then ⟨p.text ++ other.text⟩
  else ⟨p.text ++ "/" ++ other.text⟩

/-- The path with another last part; a path without a file name is read on instead. -/
def withFileName (p : Path) (name : String) : Path :=
  match p.fileName? with
  | some _ => (p.parent?.getD empty).join ⟨name⟩
  | none => p.join ⟨name⟩

def ancestorRounds : Nat → Path → List Path
  | 0, p => [p]
  | rounds + 1, p =>
      match p.parent? with
      | some up => p :: ancestorRounds rounds up
      | none => [p]

/-- The path and all above it. -/
def ancestors (p : Path) : List Path :=
  ancestorRounds (p.text.length + 1) p

theorem ofSplit_split (p : Path) : ofSplit p.split = p := by
  simp [ofSplit, split, Split.text_ofText]

theorem join_of_absolute {p other : Path} (absolute : other.isAbsolute = true) : p.join other = other := by
  simp [join, absolute]

end Path

end Accessors.File
