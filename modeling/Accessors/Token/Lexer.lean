import Accessors.Text.Blank
import Accessors.Token.Basic
import Accessors.Token.Literal

/-!
From source text to tokens. Blanks and plain comments separate tokens; a documentation comment stands for
the attribute that it abbreviates. The only errors are a character that starts no token and a delimiter
without its partner, and each is reported as a place.
-/

namespace Accessors.Lexer

open Text (isIdentStart isIdentContinue isBlank)

/-- The characters operators are made of. -/
def punctChars : List Char := "~!@#$%^&*-=+|;:,<.>/?'".toList

/-- Length of a block comment after its opening, comments inside it included. -/
def blockCommentLength : (depth : Nat) → List Char → Option Nat
  | _, [] => none
  | depth, '/' :: '*' :: rest => (blockCommentLength (depth + 1) rest).map (· + 2)
  | 0, '*' :: '/' :: _ => some 2
  | depth + 1, '*' :: '/' :: rest => (blockCommentLength depth rest).map (· + 2)
  | depth, _ :: rest => (blockCommentLength depth rest).map (· + 1)

/-- Length of the rest of a line, without what ends it. -/
def lineLength : List Char → Nat
  | [] => 0
  | '\n' :: _ => 0
  | '\r' :: '\n' :: _ => 0
  | _ :: rest => lineLength rest + 1

/-- A blank between tokens; the marks for the direction of writing count as blanks. -/
def isGap (c : Char) : Bool :=
  isBlank c || c.toNat == 0x200e || c.toNat == 0x200f

/-- A comment that documents an item: whether it speaks of the item around it, its text, and its length. -/
structure DocComment where
  inner : Bool
  body : List Char
  length : Nat

def lineDoc (inner : Bool) (text : List Char) : DocComment :=
  let n := lineLength text
  ⟨inner, text.take n, n + 3⟩

def blockDoc? (inner : Bool) (text : List Char) : Option DocComment :=
  (blockCommentLength 0 text).map fun n => ⟨inner, text.take (n - 2), n + 3⟩

/-- Whether every carriage return of a text belongs to a line end. -/
def returnsPaired : List Char → Bool
  | [] => true
  | '\r' :: '\n' :: rest => returnsPaired rest
  | c :: rest => c != '\r' && returnsPaired rest

/-- The documentation comment at the front of a text. Three slashes open one unless a fourth follows, and
two stars unless a third follows. -/
def docComment? (text : List Char) : Option DocComment :=
  let found :=
    match text with
    | '/' :: '/' :: '!' :: rest => some (lineDoc true rest)
    | '/' :: '*' :: '!' :: rest => blockDoc? true rest
    | '/' :: '/' :: '/' :: rest =>
        match rest with
        | '/' :: _ => none
        | _ => some (lineDoc false rest)
    | '/' :: '*' :: '*' :: rest =>
        match rest with
        | '*' :: _ => none
        | '/' :: _ => none
        | _ => blockDoc? false rest
    | _ => none
  match found with
  | some doc => if returnsPaired doc.body then some doc else none
  | none => none

/-- Length of the plain comment at the front of a text; zero if there is none. -/
def commentLength (text : List Char) : Nat :=
  match text with
  | '/' :: '/' :: rest =>
      match rest with
      | '!' :: _ => 0
      | '/' :: '/' :: _ => lineLength rest + 2
      | '/' :: _ => 0
      | _ => lineLength rest + 2
  | '/' :: '*' :: rest =>
      let plain :=
        match rest with
        | '!' :: _ => false
        | '*' :: '/' :: _ => true
        | '*' :: '*' :: _ => true
        | '*' :: _ => false
        | _ => true
      if plain then ((blockCommentLength 0 rest).map (· + 2)).getD 0 else 0
  | _ => 0

/-- Length of the blanks and plain comments at the front of a text, for at most so many of them. -/
def gapLength : (most : Nat) → List Char → Nat
  | 0, _ => 0
  | most + 1, text =>
      match text with
      | [] => 0
      | c :: rest =>
          if isGap c then gapLength most rest + 1
          else
            match commentLength text with
            | 0 => 0
            | n + 1 => gapLength most (text.drop (n + 1)) + (n + 1)

/-- How a character is written inside the string of a documentation attribute. -/
def escapeDocChar (c : Char) (next : Option Char) : List Char :=
  if c.toNat = 0 then
    match next with
    | some d => if '0' ≤ d ∧ d ≤ '7' then ['\\', 'x', '0', '0'] else ['\\', '0']
    | none => ['\\', '0']
  else if c = '\t' then ['\\', 't']
  else if c = '\r' then ['\\', 'r']
  else if c = '\n' then ['\\', 'n']
  else if c = '\\' then ['\\', '\\']
  else if c = '"' then ['\\', '"']
  else [c]

def escapeDoc : List Char → List Char
  | [] => []
  | c :: rest => escapeDocChar c rest.head? ++ escapeDoc rest

theorem body_length_escape_doc_char (c : Char) (next : Option Char) (rest : List Char) :
    Literal.Cooked.text.bodyLength 0 (escapeDocChar c next ++ rest)
      = (Literal.Cooked.text.bodyLength 0 rest).map (· + (escapeDocChar c next).length) := by
  have single : ∀ d, Literal.Cooked.text.skip? (d :: rest) = some 1 →
      Literal.Cooked.text.bodyLength 0 ('\\' :: d :: rest) = (Literal.Cooked.text.bodyLength 0 rest).map (· + 2) := by
    intro d escape
    rw [Literal.body_length_escape, escape]
    simp [Literal.Cooked.bodyLength, Function.comp_def]
  have pair : Literal.Cooked.text.bodyLength 0 ('\\' :: 'x' :: '0' :: '0' :: rest)
      = (Literal.Cooked.text.bodyLength 0 rest).map (· + 4) := by
    rw [Literal.body_length_escape]
    simp [Literal.Cooked.skip?, Literal.Cooked.escapeLength, Literal.Cooked.text, Literal.isHexDigit,
      Literal.hexDigit?, Literal.Cooked.bodyLength, Function.comp_def]
  unfold escapeDocChar
  split
  · split
    · split
      · exact pair
      · exact single '0' rfl
    · exact single '0' rfl
  split
  · exact single 't' rfl
  split
  · exact single 'r' rfl
  split
  · exact single 'n' rfl
  split
  · exact single '\\' rfl
  split
  · exact single '"' rfl
  · next returned _ escaped quote =>
      exact Literal.body_length_plain ⟨quote, returned, escaped⟩ rest

/-- The string of a documentation attribute. -/
def DocComment.literal (doc : DocComment) : Literal where
  text := String.ofList ('"' :: escapeDoc doc.body ++ ['"'])
  whole := by
    have body : ∀ text, Literal.Cooked.text.bodyLength 0 (escapeDoc text ++ ['"']) = some ((escapeDoc text).length + 1) := by
      intro text
      induction text with
      | nil => rfl
      | cons c rest ih =>
          rw [escapeDoc, List.append_assoc, body_length_escape_doc_char, ih, Option.map_some, List.length_append]
          congr 1
          omega
    intro _
    rw [String.toList_ofList, Literal.length_of_opens_text (Or.inl rfl), List.cons_append, Literal.stringLength, body]
    simp [Literal.identLength]

/-- The attribute that a documentation comment stands for. -/
def DocComment.lexemes (doc : DocComment) : List Lexeme :=
  .punct '#' false
    :: (if doc.inner then [.punct '!' false] else [])
    ++ [.opening .bracket, .ident ⟨"doc", by decide⟩, .punct '=' false,
      .literal doc.literal, .closing .bracket]

/-- Whether a comment begins here. -/
def startsComment : List Char → Bool
  | '/' :: '/' :: _ => true
  | '/' :: '*' :: _ => true
  | _ => false

/-- Whether a punctuation character begins here. -/
def startsPunct (text : List Char) : Bool :=
  match text with
  | [] => false
  | c :: _ => punctChars.contains c && !startsComment text

/-- The beginnings of string literals, which open no identifier. -/
def stringOpenings : List (List Char) :=
  ["r\"", "r#\"", "r##", "b\"", "b'", "br\"", "br#", "c\"", "cr\"", "cr#"].map String.toList

/-- Whether an apostrophe with this text after it opens a lifetime. It opens a character if another
apostrophe ends it, and a number sign may only be part of a raw mark. -/
def opensLifetime (text : List Char) : Bool :=
  match text.drop (identLength text) with
  | '\'' :: _ => false
  | '#' :: _ => ['r', '#'].isPrefixOf text
  | _ => true

/-- The lexeme at the front of a text that begins with no literal and no delimiter, and its length. -/
def plainLeaf? (text : List Char) : Option (Lexeme × Nat) :=
  match text with
  | [] => none
  | c :: rest =>
      if c = '\'' then
        if opens : identLength rest ≠ 0 then
          if opensLifetime rest then
            some (.lifetime ⟨Ident.front rest opens⟩, identLength rest + 1)
          else none
        else none
      else if startsPunct text then some (.punct c (startsPunct rest), 1)
      else if stringOpenings.any (·.isPrefixOf text) then none
      else if opens : identLength text ≠ 0 then some (.ident (Ident.front text opens), identLength text)
      else none

/-- The lexeme at the front of a text, delimiters apart, and its length. -/
def leaf? (text : List Char) : Option (Lexeme × Nat) :=
  match found : Literal.length? text with
  | some n => some (.literal (Literal.front text found), n)
  | none => plainLeaf? text

/-- Reads tokens onto those read so far, which are given backwards. The open delimiters are kept with
their places, innermost first. -/
def tokensFrom : (most : Nat) → List Char → Pos → List (Delimiter × Pos) → List Token →
    Except Pos (List Token)
  | 0, _, pos, _, _ => .error pos
  | most + 1, text, pos, opened, done =>
      let gap := gapLength (most + 1) text
      let pos := pos.after (text.take gap)
      let text := text.drop gap
      match docComment? text with
      | some doc =>
          tokensFrom most (text.drop doc.length) (pos.after (text.take doc.length)) opened
            ((doc.lexemes.map (⟨·, pos⟩)).reverse ++ done)
      | none =>
          match text with
          | [] =>
              match opened with
              | [] => .ok done.reverse
              | (_, place) :: _ => .error place
          | c :: rest =>
              match Delimiter.ofOpening? c, Delimiter.ofClosing? c with
              | some d, _ => tokensFrom most rest (pos.next c) ((d, pos) :: opened) (⟨.opening d, pos⟩ :: done)
              | none, some d =>
                  match opened with
                  | (e, _) :: opened =>
                      if e = d then tokensFrom most rest (pos.next c) opened (⟨.closing d, pos⟩ :: done)
                      else .error pos
                  | [] => .error pos
              | none, none =>
                  match leaf? text with
                  | none => .error pos
                  | some (lexeme, n) =>
                      tokensFrom most (text.drop n) (pos.after (text.take n)) opened (⟨lexeme, pos⟩ :: done)

/-- The mark some editors put in front of a file. -/
def byteOrderMark : Char := Char.ofNat 0xfeff

/-- The tokens of a text, or the place of what is no token. A byte order mark in front is passed over. -/
def tokens (text : String) : Except Pos (List Token) :=
  match text.toList with
  | c :: rest =>
      if c = byteOrderMark then tokensFrom (rest.length + 1) rest (Pos.start.next c) [] []
      else tokensFrom (rest.length + 2) (c :: rest) Pos.start [] []
  | [] => .ok []

/-- The text of a file without its byte order mark and without the line that names its interpreter. That
line begins with a number sign and an exclamation mark that open no attribute; its end is kept, so that
lines keep their numbers. -/
def fileBody (text : String) : String :=
  let body :=
    match text.toList with
    | c :: rest => if c = byteOrderMark then rest else c :: rest
    | [] => []
  match body with
  | '#' :: '!' :: rest =>
      match rest.drop (gapLength rest.length rest) with
      | '[' :: _ => String.ofList body
      | _ => String.ofList (rest.dropWhile (· != '\n'))
  | _ => String.ofList body

end Accessors.Lexer
