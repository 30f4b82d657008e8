import Accessors.Token.Literal

/-!
What a literal is, read off its text, and the text that a text literal stands for.
-/

namespace Accessors.Literal

/-- A text literal, cooked or raw. -/
def isText (text : String) : Bool :=
  match text.toList with
  | '"' :: _ => true
  | 'r' :: _ => true
  | _ => false

/-- Whether the letter `e` of a decimal number opens an exponent. -/
def opensExponent : List Char → Bool
  | [] => false
  | c :: rest => if c = '_' then opensExponent rest else c == '+' || c == '-' || c.isDigit

/-- The part of a decimal number that makes it an integer or not, from its first digit on. -/
def isWhole : List Char → Bool
  | [] => true
  | c :: rest =>
      if c.isDigit || c == '_' then isWhole rest
      else if c = '.' then false
      else if c = 'e' ∨ c = 'E' then !opensExponent rest
      else true

/-- An integer, as opposed to a number with a point or an exponent. -/
def isInteger (text : String) : Bool :=
  match text.toList with
  | '0' :: 'x' :: _ => true
  | '0' :: 'o' :: _ => true
  | '0' :: 'b' :: _ => true
  | c :: rest => c.isDigit && isWhole rest
  | [] => false

def isNumber (text : String) : Bool :=
  match text.toList with
  | c :: _ => c.isDigit
  | [] => false

/-- The character a two-digit escape stands for. -/
def hexPairChar (a b : Char) : Char :=
  Char.ofNat ((hexDigit? a).getD 0 * 16 + (hexDigit? b).getD 0)

/-- The text of a cooked body up to its closing quote. The counter is how many characters of the last
escape are still to be passed over. -/
def cookedValue : (passing : Nat) → List Char → List Char
  | _, [] => []
  | passing + 1, _ :: rest => cookedValue passing rest
  | 0, c :: rest =>
      if c = '"' then []
      else if c = '\r' then cookedValue 0 rest
      else if c = '\\' then
        match rest with
        | 'x' :: a :: b :: _ => hexPairChar a b :: cookedValue 3 rest
        | 'u' :: _ :: digits =>
            match codePoint? 0 0 digits with
            | some (value, n) => Char.ofNat value :: cookedValue (n + 2) rest
            | none => cookedValue 1 rest
        | 'n' :: _ => '\n' :: cookedValue 1 rest
        | 'r' :: _ => '\r' :: cookedValue 1 rest
        | 't' :: _ => '\t' :: cookedValue 1 rest
        | '0' :: _ => Char.ofNat 0 :: cookedValue 1 rest
        | '\n' :: more => cookedValue ((lineJoinLength '\n' more).getD 0 + 1) rest
        | '\r' :: more => cookedValue ((lineJoinLength '\r' more).getD 0 + 1) rest
        | d :: _ => d :: cookedValue 1 rest
        | [] => []
      else c :: cookedValue 0 rest

/-- The text of a raw body up to its closing quote, which so many number signs follow. -/
def rawValue (hashes : Nat) : List Char → List Char
  | [] => []
  | c :: rest =>
      if c = '"' ∧ (List.replicate hashes '#').isPrefixOf rest then [] else c :: rawValue hashes rest

/-- The text that a text literal stands for; its suffix is no part of it. -/
def textValue (text : String) : String :=
  match text.toList with
  | '"' :: rest => String.ofList (cookedValue 0 rest)
  | 'r' :: rest =>
      let hashes := (rest.takeWhile (· == '#')).length
      String.ofList (rawValue hashes (rest.drop (hashes + 1)))
  | _ => ""

end Accessors.Literal
