import Accessors.Text.IdentChar

/-!
The shapes of literals: strings, byte strings, C strings, bytes, characters and numbers. Each recogniser
answers how many characters of the text the literal takes, suffix included, or that none starts there.
-/

namespace Accessors.Literal

open Text (isIdentStart isIdentContinue)

def hexDigit? (c : Char) : Option Nat :=
  if '0' ≤ c ∧ c ≤ '9' then some (c.toNat - '0'.toNat)
  else if 'a' ≤ c ∧ c ≤ 'f' then some (c.toNat - 'a'.toNat + 10)
  else if 'A' ≤ c ∧ c ≤ 'F' then some (c.toNat - 'A'.toNat + 10)
  else none

def isHexDigit (c : Char) : Bool := (hexDigit? c).isSome

/-- Length of the identifier, without a raw mark, at the front of a text; zero if there is none. -/
def identLength : List Char → Nat
  | [] => 0
  | c :: rest => if isIdentStart c then 1 + (rest.takeWhile isIdentContinue).length else 0

/-- The code point of the digits, with underscores between them, up to a closing brace. -/
def codePoint? (value digits : Nat) : List Char → Option (Nat × Nat)
  | [] => none
  | c :: rest =>
      match hexDigit? c with
      | some d =>
          if digits = 6 then none
          else (codePoint? (value * 16 + d) (digits + 1) rest).map fun (v, n) => (v, n + 1)
      | none =>
          if c = '_' ∧ 0 < digits then (codePoint? value digits rest).map fun (v, n) => (v, n + 1)
          else if c = '\x7d' ∧ 0 < digits ∧ value.isValidChar then some (value, 1)
          else none

/-- The rules that differ between the three kinds of cooked strings. -/
structure Cooked where
  /-- Whether a character may stand for itself. -/
  plain : Char → Bool
  /-- Whether the two digits after a backslash and `x` are allowed. -/
  hexPair : Char → Char → Bool
  /-- Whether a code point may be written in braces. -/
  codePoint : Nat → Bool
  /-- The characters that may follow a backslash by themselves. -/
  escapes : List Char

def Cooked.text : Cooked where
  plain _ := true
  hexPair a b := ('0' ≤ a && a ≤ '7') && isHexDigit b
  codePoint _ := true
  escapes := ['n', 'r', 't', '\\', '\'', '"', '0']

def Cooked.bytes : Cooked where
  plain c := c.toNat < 0x80
  hexPair a b := isHexDigit a && isHexDigit b
  codePoint _ := false
  escapes := ['n', 'r', 't', '\\', '\'', '"', '0']

def Cooked.cText : Cooked where
  plain c := c.toNat != 0
  hexPair a b := isHexDigit a && isHexDigit b && !(a == '0' && b == '0')
  codePoint n := n != 0
  escapes := ['n', 'r', 't', '\\', '\'', '"']

/-- Length of the blanks that a backslash at the end of a line skips, given the line's last character. A
carriage return has its line feed, and the string goes on after the blanks. -/
def lineJoinLength (last : Char) : List Char → Option Nat
  | [] => none
  | c :: rest =>
      if last = '\r' then
        if c = '\n' then
          match rest with
          | [] => none
          | d :: more =>
              if d = ' ' ∨ d = '\t' ∨ d = '\n' ∨ d = '\r' then (lineJoinLength d more).map (· + 2)
              else some 1
        else none
      else if c = ' ' ∨ c = '\t' ∨ c = '\n' ∨ c = '\r' then (lineJoinLength c rest).map (· + 1)
      else some 0

/-- Length of an escape sequence after its backslash. -/
def Cooked.escapeLength (kind : Cooked) : List Char → Option Nat
  | [] => none
  | 'x' :: a :: b :: _ => if kind.hexPair a b then some 3 else none
  | 'u' :: '\x7b' :: rest =>
      match codePoint? 0 0 rest with
      | some (v, n) => if kind.codePoint v then some (n + 2) else none
      | none => none
  | c :: _ => if c ∈ kind.escapes then some 1 else none

/-- Length of a cooked string after its opening quote, closing quote included. The counter is how many
characters of the last escape are still to be passed over. -/
def Cooked.bodyLength (kind : Cooked) : Nat → List Char → Option Nat
  | _, [] => none
  | passing + 1, _ :: rest => (kind.bodyLength passing rest).map (· + 1)
  | 0, '"' :: _ => some 1
  | 0, '\r' :: rest =>
      match rest with
      | '\n' :: _ => (kind.bodyLength 0 rest).map (· + 1)
      | _ => none
  | 0, '\\' :: rest =>
      let skip? :=
        match rest with
        | '\n' :: more => (lineJoinLength '\n' more).map (· + 1)
        | '\r' :: more => (lineJoinLength '\r' more).map (· + 1)
        | _ => kind.escapeLength rest
      match skip? with
      | some skip => (kind.bodyLength skip rest).map (· + 1)
      | none => none
  | 0, c :: rest => if kind.plain c then (kind.bodyLength 0 rest).map (· + 1) else none

/-- How many characters a backslash lets pass, itself apart. -/
def Cooked.skip? (kind : Cooked) (rest : List Char) : Option Nat :=
  match rest with
  | '\n' :: more => (lineJoinLength '\n' more).map (· + 1)
  | '\r' :: more => (lineJoinLength '\r' more).map (· + 1)
  | _ => kind.escapeLength rest

theorem body_length_escape (kind : Cooked) (rest : List Char) :
    kind.bodyLength 0 ('\\' :: rest)
      = (kind.skip? rest).bind fun skip => (kind.bodyLength skip rest).map (· + 1) := by
  have chosen : kind.bodyLength 0 ('\\' :: rest)
      = match kind.skip? rest with
        | some skip => (kind.bodyLength skip rest).map (· + 1)
        | none => none := by
    rw [Cooked.bodyLength.eq_def]
    rfl
  rw [chosen]
  cases kind.skip? rest <;> rfl

/-- Length of a raw string after its opening quote, closing quote and number signs included. -/
def rawBodyLength (plain : Char → Bool) (hashes : Nat) : List Char → Option Nat
  | [] => none
  | '"' :: rest =>
      if (List.replicate hashes '#').isPrefixOf rest then some (1 + hashes)
      else (rawBodyLength plain hashes rest).map (· + 1)
  | '\r' :: '\n' :: rest => (rawBodyLength plain hashes rest).map (· + 2)
  | '\r' :: _ => none
  | c :: rest => if plain c then (rawBodyLength plain hashes rest).map (· + 1) else none

/-- Length of a raw string after the letters that announce it. -/
def rawLength (plain : Char → Bool) (text : List Char) : Option Nat :=
  let hashes := (text.takeWhile (· == '#')).length
  match text.drop hashes with
  | '"' :: rest =>
      if hashes ≤ 255 then (rawBodyLength plain hashes rest).map (· + (hashes + 1)) else none
  | _ => none

/-- Length of a string literal of any kind, without its suffix. -/
def stringLength : List Char → Option Nat
  | '"' :: rest => (Cooked.text.bodyLength 0 rest).map (· + 1)
  | 'r' :: rest => (rawLength (fun _ => true) rest).map (· + 1)
  | 'b' :: '"' :: rest => (Cooked.bytes.bodyLength 0 rest).map (· + 2)
  | 'b' :: 'r' :: rest => (rawLength (fun c => c.toNat < 0x80) rest).map (· + 2)
  | 'c' :: '"' :: rest => (Cooked.cText.bodyLength 0 rest).map (· + 2)
  | 'c' :: 'r' :: rest => (rawLength (fun c => c.toNat != 0) rest).map (· + 2)
  | _ => none

/-- Length of a quoted byte or character after its opening apostrophe. -/
def Cooked.quotedLength (kind : Cooked) (text : List Char) : Option Nat :=
  let inner :=
    match text with
    | [] => none
    | '\\' :: rest => (kind.escapeLength rest).map (· + 1)
    | _ :: _ => some 1
  match inner with
  | none => none
  | some n =>
      match text.drop n with
      | '\'' :: _ => some (n + 1)
      | _ => none

/-- Length of a byte or character literal, without its suffix. -/
def quotedLength : List Char → Option Nat
  | 'b' :: '\'' :: rest =>
      match rest with
      | c :: _ => if c.toNat < 0x80 then (Cooked.bytes.quotedLength rest).map (· + 2) else none
      | [] => none
  | '\'' :: rest => (Cooked.text.quotedLength rest).map (· + 1)
  | _ => none

/-- The digits of an exponent after its letter: its length, and whether a second sign or a missing digit
makes it no exponent. -/
def exponentLength : (signed valued : Bool) → List Char → Option Nat
  | signed, valued, c :: rest =>
      if c = '+' ∨ c = '-' then
        if valued then some 0
        else if signed then none
        else (exponentLength true valued rest).map (· + 1)
      else if c.isDigit then (exponentLength signed true rest).map (· + 1)
      else if c = '_' then (exponentLength signed valued rest).map (· + 1)
      else if valued then some 0 else none
  | _, valued, [] => if valued then some 0 else none

/-- Length of the digits, point and exponent of a number with a point or an exponent. -/
def pointedLength (dotted : Bool) : List Char → Option Nat
  | c :: rest =>
      if c.isDigit ∨ c = '_' then (pointedLength dotted rest).map (· + 1)
      else if c = '.' then
        if dotted then some 0
        else
          match rest with
          | d :: _ =>
              if d = '.' ∨ isIdentStart d then none else (pointedLength true rest).map (· + 1)
          | [] => some 1
      else if c = 'e' ∨ c = 'E' then
        match exponentLength false false rest with
        | some n => some (n + 1)
        | none => if dotted then some 0 else none
      else if dotted then some 0 else none
  | [] => if dotted then some 0 else none

/-- Digits of an integer in a base, underscores among them; the flag says whether a digit was seen. -/
def digitsLength (base : Nat) (seen : Bool) : List Char → Option Nat
  | c :: rest =>
      if c = '_' then
        if !seen ∧ base = 10 then none else (digitsLength base seen rest).map (· + 1)
      else
        match hexDigit? c with
        | some d =>
            if d < base then (digitsLength base true rest).map (· + 1)
            else if c.isDigit then none
            else if seen then some 0 else none
        | none => if seen then some 0 else none
  | [] => if seen then some 0 else none

/-- Length of an integer's base mark and digits. -/
def integerLength : List Char → Option Nat
  | '0' :: 'x' :: rest => (digitsLength 16 false rest).map (· + 2)
  | '0' :: 'o' :: rest => (digitsLength 8 false rest).map (· + 2)
  | '0' :: 'b' :: rest => (digitsLength 2 false rest).map (· + 2)
  | text => digitsLength 10 false text

/-- A number of the given length with the suffix that follows it, provided a word ends there. -/
def suffixed (text : List Char) (n : Nat) : Option Nat :=
  let total := n + identLength (text.drop n)
  match text.drop total with
  | c :: _ => if isIdentContinue c then none else some total
  | [] => some total

/-- Length of a number, suffix included. -/
def numberLength (text : List Char) : Option Nat :=
  let pointed :=
    match text with
    | c :: rest => if c.isDigit then ((pointedLength false rest).map (· + 1)).bind (suffixed text) else none
    | [] => none
  match pointed with
  | some n => some n
  | none => (integerLength text).bind (suffixed text)

/-- Length of the literal at the front of a text. -/
def length? (text : List Char) : Option Nat :=
  match stringLength text with
  | some n => some (n + identLength (text.drop n))
  | none =>
      match quotedLength text with
      | some n => some (n + identLength (text.drop n))
      | none => numberLength text

end Accessors.Literal
