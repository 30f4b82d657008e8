import Accessors.Token.Basic
import Accessors.Token.Spacing

/-!
Writing lexemes as text. Two lexemes have one space between them unless the first is a joint punctuation
character, or one of them is the inner side of a parenthesis or a bracket.
-/

namespace Accessors

namespace Lexeme

/-- A lexeme by itself. -/
def text : Lexeme → List Char
  | ident name => name.text.toList
  | punct c _ => [c]
  | literal name => name.text.toList
  | lifetime name => name.text.toList
  | opening d => [d.opening]
  | closing d => [d.closing]

/-- Whether what follows is written directly after the lexeme. -/
def gluesAfter : Lexeme → Bool
  | punct _ joint => joint
  | opening .paren => true
  | opening .bracket => true
  | _ => false

/-- Whether the lexeme is written directly after what precedes it. -/
def gluesBefore : Lexeme → Bool
  | closing .paren => true
  | closing .bracket => true
  | _ => false

/-- What stands between two neighbours. -/
def gap (left right : Lexeme) : List Char :=
  if left.gluesAfter || right.gluesBefore then [] else [' ']

/-- Lexemes with a space between any two that may have one. -/
def spaced : List Lexeme → List Char
  | [] => []
  | [only] => only.text
  | left :: right :: rest => left.text ++ gap left right ++ spaced (right :: rest)

/-- The text of lexemes that are shown and not interpreted. -/
def render (lexemes : List Lexeme) : String :=
  String.ofList (Spacing.tighten (spaced lexemes))

end Lexeme

end Accessors
