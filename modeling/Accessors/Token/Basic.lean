import Accessors.Token.WholeLiteral

/-!
Tokens of the declaration language. A file is a flat list of lexemes in which every delimiter has its
partner, so a bracketed group is a stretch of the list and a parser meets its end as a closing lexeme.
-/

namespace Accessors

/-- A place in a source file. Lines and columns count from one, and columns count characters. -/
structure Pos where
  line : Nat
  column : Nat
  deriving DecidableEq, Repr, Inhabited

namespace Pos

/-- The first character of a file, also used for what is found missing at its end. -/
def start : Pos := ⟨1, 1⟩

/-- The place after one character. -/
def next (p : Pos) (c : Char) : Pos :=
  if c = '\n' then ⟨p.line + 1, 1⟩ else ⟨p.line, p.column + 1⟩

/-- The place after a stretch of text. -/
def after (p : Pos) (text : List Char) : Pos := text.foldl next p

theorem after_append (p : Pos) (text rest : List Char) :
    p.after (text ++ rest) = (p.after text).after rest := by
  simp [after]

end Pos

inductive Delimiter where
  | paren
  | bracket
  | brace
  deriving DecidableEq, Repr, Inhabited

namespace Delimiter

def opening : Delimiter → Char
  | paren => '('
  | bracket => '['
  | brace => '{'

def closing : Delimiter → Char
  | paren => ')'
  | bracket => ']'
  | brace => '}'

def ofOpening? : Char → Option Delimiter
  | '(' => some paren
  | '[' => some bracket
  | '{' => some brace
  | _ => none

def ofClosing? : Char → Option Delimiter
  | ')' => some paren
  | ']' => some bracket
  | '}' => some brace
  | _ => none

theorem ofOpening?_opening (d : Delimiter) : ofOpening? d.opening = some d := by
  cases d <;> rfl

theorem ofClosing?_closing (d : Delimiter) : ofClosing? d.closing = some d := by
  cases d <;> rfl

end Delimiter

/-- One lexeme. Identifiers keep the `r#` they were written with, and literals are kept as written. A
punctuation character is joint when the next lexeme continues an operator. -/
inductive Lexeme where
  | ident (name : Ident)
  | punct (char : Char) (joint : Bool)
  | literal (name : Literal)
  | lifetime (name : Lifetime)
  | opening (delimiter : Delimiter)
  | closing (delimiter : Delimiter)
  deriving DecidableEq, Repr, Inhabited

/-- A lexeme and the place where it starts. -/
structure Token where
  lexeme : Lexeme
  pos : Pos
  deriving DecidableEq, Repr, Inhabited

end Accessors
