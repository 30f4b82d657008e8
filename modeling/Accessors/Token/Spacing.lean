import Accessors.Text.Basic

/-!
Spacing of token text. Text made of tokens has a space between any two of them; sixteen rules, applied one
after the other, close the spaces that are not written by convention. Each rule is applied to every
occurrence until none is left, and since a rule only shortens the text, as many rounds as the text has
characters are enough.
-/

namespace Accessors.Spacing

/-- A pattern with spaces and the same characters with fewer spaces. -/
structure Rule where
  spaced : List Char
  tight : List Char
  deriving DecidableEq, Repr

/-- The rules in the order of their application. -/
def rules : List Rule := [
  ⟨[' ', ':', ':', ' '], [':', ':']⟩,
  ⟨[':', ':', ' '], [':', ':']⟩,
  ⟨[' ', ':', ':'], [':', ':']⟩,
  ⟨[' ', ','], [',']⟩,
  ⟨[' ', ';'], [';']⟩,
  ⟨[' ', '<', ' '], ['<']⟩,
  ⟨['<', ' '], ['<']⟩,
  ⟨[' ', '<'], ['<']⟩,
  ⟨[' ', '>'], ['>']⟩,
  ⟨['&', ' '], ['&']⟩,
  ⟨[' ', '!'], ['!']⟩,
  ⟨['!', ' ', '('], ['!', '(']⟩,
  ⟨['(', ' '], ['(']⟩,
  ⟨[' ', ')'], [')']⟩,
  ⟨['[', ' '], ['[']⟩,
  ⟨[' ', ']'], [']']⟩]

/-- Applies one rule until its pattern no longer occurs, for at most the given number of rounds. -/
def Rule.close (rule : Rule) : Nat → List Char → List Char
  | 0, text => text
  | rounds + 1, text =>
      if Text.occurs rule.spaced text then
        rule.close rounds (Text.replaceAll rule.spaced rule.tight text)
      else text

/-- Applies one rule to a whole text. -/
def Rule.apply (text : List Char) (rule : Rule) : List Char :=
  rule.close text.length text

/-- Closes the spaces of token text. -/
def tighten (text : List Char) : List Char :=
  rules.foldl Rule.apply text

/-- Token text with its conventional spacing. -/
def normalize (text : String) : String :=
  String.ofList (tighten text.toList)

end Accessors.Spacing
