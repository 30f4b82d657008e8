import Accessors.Token.LiteralKind
import Accessors.Token.Tree

/-!
What a parser looks at and what it moves. A parser reads the trees of one group and moves a cursor over
them. A place is told by the number of lexemes from it to the end of the group, so it is the same wherever
the group stands. What is left over in a group is no failure at once: the first such place is remembered
and reported when all else could be read.

The cursor also keeps what was read in its canonical writing, where an operator is joint up to its last
character, because some parts of a type are shown again as tokens.
-/

namespace Accessors.Parsing

/-- Words that are never identifiers. -/
def reserved : List String := [
  "_", "abstract", "as", "async", "await", "become", "box", "break", "const", "continue", "crate", "do",
  "dyn", "else", "enum", "extern", "false", "final", "fn", "for", "if", "impl", "in", "let", "loop",
  "macro", "match", "mod", "move", "mut", "override", "priv", "pub", "ref", "return", "Self", "self",
  "static", "struct", "super", "trait", "true", "try", "type", "typeof", "unsafe", "unsized", "use",
  "virtual", "where", "while", "yield"]

/-! Looking at the tokens ahead. -/

namespace Ahead

/-- What follows the next lexeme or group. -/
def next : List TokenTree → List TokenTree := List.tail

/-- What stands inside the group ahead. -/
def inside : List TokenTree → List TokenTree
  | .group _ trees :: _ => trees
  | _ => []

def atEnd : List TokenTree → Bool := List.isEmpty

/-- The given word, be it reserved or not. -/
def word (w : String) : List TokenTree → Bool
  | .leaf (.ident name) :: _ => name.text == w
  | _ => false

def anyIdent : List TokenTree → Bool
  | .leaf (.ident _) :: _ => true
  | _ => false

def ident : List TokenTree → Bool
  | .leaf (.ident name) :: _ => !reserved.contains name.text
  | _ => false

/-- The given operator, or an operator that it begins. -/
def op : List Char → List TokenTree → Bool
  | [], _ => true
  | [c], .leaf (.punct d _) :: _ => c == d
  | c :: more, .leaf (.punct d joint) :: rest => c == d && joint && op more rest
  | _, _ => false

def lifetime : List TokenTree → Bool
  | .leaf (.lifetime _) :: _ => true
  | _ => false

def opens (d : Delimiter) : List TokenTree → Bool
  | .group e _ :: _ => d == e
  | _ => false

def opensAny : List TokenTree → Bool
  | .group _ _ :: _ => true
  | _ => false

/-- The path separator. -/
def colons : List TokenTree → Bool := op [':', ':']

/-- A literal, a truth value, or a number with a minus sign. -/
def literal : List TokenTree → Bool
  | .leaf (.literal _) :: _ => true
  | .leaf (.ident name) :: _ => name.text == "true" || name.text == "false"
  | .leaf (.punct '-' _) :: .leaf (.literal name) :: _ => Literal.isNumber name.text
  | _ => false

def textLiteral : List TokenTree → Bool
  | .leaf (.literal name) :: _ => Literal.isText name.text
  | _ => false

end Ahead

/-- A place, told by the number of lexemes from it to the end of the group. -/
abbrev Place := Nat

structure Cursor where
  rest : List TokenTree
  stray : Option Place
  /-- What was read, last lexeme first. -/
  read : List Lexeme

namespace Cursor

/-- A cursor at the front of trees. -/
def start (trees : List TokenTree) : Cursor := ⟨trees, none, []⟩

def place (c : Cursor) : Place := TokenTree.sizeAll c.rest

/-- Passes over so many trees and keeps the given lexemes as read. -/
def skip (count : Nat) (lexemes : List Lexeme) (c : Cursor) : Cursor :=
  { c with rest := c.rest.drop count, read := lexemes.reverse ++ c.read }

/-- A place inside a group as a place outside it, by the trees after the group. -/
def outside (after : List TokenTree) (place : Place) : Place := place + 1 + TokenTree.sizeAll after

/-- The first place that was passed over in the group that was just read. -/
def leftover (c : Cursor) : Option Place :=
  c.stray.or (if c.rest.isEmpty then none else some c.place)

/-- The cursor after a group that was read from the inside up to the given cursor. What was not read in it
is passed over. -/
def leave (c : Cursor) (d : Delimiter) (after : List TokenTree) (inner : Cursor) : Cursor where
  rest := after
  stray := c.stray.or (inner.leftover.map (outside after))
  read := .closing d :: (inner.read ++ .opening d :: c.read)

end Cursor

end Accessors.Parsing
