import Accessors.Generation.Run
import Accessors.Proofs.GeneratedFile
import Accessors.Proofs.Spans

/-!
The tokens of the accessors of a field. What is written around the header, the type and the name of the field is the
same for every field, so the lexer finds the lexemes of the three in one frame.
-/

namespace Accessors

open Text (isIdentStart isIdentContinue)
open Lexer (AdvancesAll Parted ReadAs nested startsPunct punctChars)

/-! Names. -/

namespace Ident

/-- A text of characters of identifiers is one, if it begins as one. -/
theorem whole_of_chars {text : String} {c : Char} {rest : List Char} (shape : text.toList = c :: rest)
    (opens : isIdentStart c = true) (continues : ∀ d ∈ rest, isIdentContinue d = true) :
    text.toList ≠ [] ∧ Lexer.identLength text.toList = text.toList.length := by
  refine ⟨by rw [shape]; exact List.cons_ne_nil c rest, ?_⟩
  rw [shape, Lexer.ident_length_plain]
  · have all : rest.takeWhile isIdentContinue = rest := by
      simpa using @List.takeWhile_append_of_pos _ isIdentContinue rest [] continues
    simp [Literal.identLength, opens, all, Nat.add_comm 1]
  · intro more same
    have sign := continues '#' (by rw [(List.cons.inj same).2]; exact List.mem_cons_self)
    revert sign
    decide

/-- Without its raw mark a name has characters of identifiers only. -/
theorem unraw_continues (name : Ident) : ∀ c ∈ (unraw name.text).toList, isIdentContinue c = true := by
  rcases Lexer.word_shape name with ⟨whole, plain⟩ | ⟨rest, shape, whole, -⟩
  · have unmarked : Text.cutStart? rawMark name.text.toList = none := by
      cases cut : Text.cutStart? rawMark name.text.toList with
      | none => rfl
      | some rest => exact absurd (Text.append_of_cutStart? cut) (plain rest)
    rw [unraw, unmarked]
    exact Literal.plain_ident_chars whole
  · have text : name.text = String.ofList (rawMark ++ rest) := by
      apply String.toList_injective
      rw [shape, String.toList_ofList]
      rfl
    rw [text, unraw_raw, String.toList_ofList]
    exact Literal.plain_ident_chars whole

end Ident

theorem isIdentContinue_of_digit {c : Char} (digit : c.isDigit = true) : isIdentContinue c = true := by
  have table : ∀ c ∈ "0123456789".toList, isIdentContinue c = true := Lexer.each_of_all (by decide +kernel)
  exact table c (Literal.digits_listed digit)

theorem position_digits (position : Nat) :
    (∀ c ∈ (Literal.ofNat position).text.toList, c.isDigit = true) ∧ (Literal.ofNat position).text.toList ≠ [] := by
  have digits : (Literal.ofNat position).text.toList = Nat.toDigits 10 position := Nat.toList_repr
  rw [digits]
  exact ⟨fun c member => Nat.isDigit_of_mem_toDigits (by decide) (by decide) member, Nat.toDigits_ne_nil⟩

/-- What the accessors of a member are named after can stand in a name. -/
theorem accessor_continues {fields : Fields} {member : Member} (listed : member ∈ fields.members) :
    ∀ c ∈ member.accessor.toList, isIdentContinue c = true := by
  cases fields with
  | named fields =>
      obtain ⟨field, -, rfl⟩ := List.mem_map.mp listed
      exact field.1.unraw_continues
  | positional types =>
      obtain ⟨field, -, rfl⟩ := List.mem_map.mp listed
      intro c member
      exact isIdentContinue_of_digit ((position_digits field.2).1 c member)
  | unit => exact absurd listed List.not_mem_nil

/-- A verb in front of what an accessor is named after is a name. -/
theorem exists_accessor {verb accessor : String} {c : Char} {rest : List Char} (shape : verb.toList = c :: rest)
    (opens : isIdentStart c = true) (each : ∀ d ∈ rest, isIdentContinue d = true)
    (continues : ∀ d ∈ accessor.toList, isIdentContinue d = true) : ∃ name : Ident, name.text = verb ++ accessor := by
  have whole : (verb ++ accessor).toList = c :: (rest ++ accessor.toList) := by
    rw [String.toList_append, shape]
    rfl
  refine ⟨⟨verb ++ accessor, Ident.whole_of_chars whole opens fun d member => ?_⟩, rfl⟩
  exact (List.mem_append.mp member).elim (each d) (continues d)

/-! Positions. -/

namespace Literal

variable {text : List Char}

theorem pointed_length_of_digits (digits : ∀ c ∈ text, c.isDigit = true) : pointedLength false text = none := by
  induction text with
  | nil => rfl
  | cons c text ih =>
      obtain ⟨digit, others⟩ := List.forall_mem_cons.mp digits
      simp [pointedLength, digit, ih others]

theorem digits_length_of_digits (digits : ∀ c ∈ text, c.isDigit = true) (seen : Bool) (some : seen = true ∨ text ≠ []) :
    digitsLength 10 seen text = Option.some text.length := by
  induction text generalizing seen with
  | nil => rw [some.resolve_right (absurd rfl)]; rfl
  | cons c text ih =>
      obtain ⟨digit, others⟩ := List.forall_mem_cons.mp digits
      obtain ⟨other, d, value, less⟩ := digit_value digit
      simp [digitsLength, other, value, less, ih others true (Or.inl rfl)]

/-- Digits are one literal. -/
theorem length_of_digits (digits : ∀ c ∈ text, c.isDigit = true) (some : text ≠ []) :
    length? text = Option.some text.length := by
  have integer : integerLength text = Option.some text.length := by
    rw [integer_length_plain, digits_length_of_digits digits false (Or.inr some)]
    rintro c rest rfl listed
    have table : ∀ c ∈ ['x', 'o', 'b'], c.isDigit = false := Lexer.each_of_all (by decide)
    have digit := digits c (by simp)
    rw [table c listed] at digit
    cases digit
  cases text with
  | nil => exact absurd rfl some
  | cons c rest =>
      obtain ⟨digit, others⟩ := List.forall_mem_cons.mp digits
      obtain ⟨string, quoted⟩ := only_number digit rest
      simp only [length?, string, quoted]
      rw [numberLength, pointed_length_of_digits others, integer]
      simp [suffixed, identLength]

end Literal

/-! The frame. -/

/-- What a field is selected by: its name, or its position. -/
def Selector (name : String) (l : Lexeme) : Prop :=
  (∃ field : Ident, l = .ident field ∧ field.text = name) ∨ ∃ position : Nat, l = .literal (.ofNat position) ∧ toString position = name

theorem exists_selector {fields : Fields} {member : Member} (listed : member ∈ fields.members) :
    ∃ l, Selector member.name l := by
  cases fields with
  | named fields =>
      obtain ⟨field, -, rfl⟩ := List.mem_map.mp listed
      exact ⟨.ident field.1, Or.inl ⟨field.1, rfl, rfl⟩⟩
  | positional types =>
      obtain ⟨field, -, rfl⟩ := List.mem_map.mp listed
      exact ⟨.literal (.ofNat field.2), Or.inr ⟨field.2, rfl, rfl⟩⟩
  | unit => exact absurd listed List.not_mem_nil

/-- The whole text is one word. -/
abbrev Spelled (text : String) : Prop := text.toList ≠ [] ∧ Lexer.identLength text.toList = text.toList.length

/-- The words of implementations and their accessors. -/
def implWords : List String := ["impl", "unsafe", "default", "pub", "fn", "self", "mut", "val"]

theorem impl_words_spelled : ∀ word ∈ implWords, Spelled word := by decide

def pubIdent : Ident := ⟨"pub", impl_words_spelled _ (by decide)⟩

def fnIdent : Ident := ⟨"fn", impl_words_spelled _ (by decide)⟩

def selfIdent : Ident := ⟨"self", impl_words_spelled _ (by decide)⟩

def mutIdent : Ident := ⟨"mut", impl_words_spelled _ (by decide)⟩

def valIdent : Ident := ⟨"val", impl_words_spelled _ (by decide)⟩

namespace Span

abbrev word (name : Ident) : Span := lexeme (.ident name)

abbrev mark (c : Char) (joint : Bool) : Span := lexeme (.punct c joint)

abbrev opens (d : Delimiter) : Span := lexeme (.opening d)

abbrev closes (d : Delimiter) : Span := lexeme (.closing d)

/-- A new line with so many blanks. -/
def line (indent : Nat) : List Span := blank '\n' :: List.replicate indent (blank ' ')

end Span

/-- What is known of a field when its accessors are written: the header, the type and the name as they are read, and the
names of the accessors. -/
structure Frame where
  header : List Char
  headerLexemes : List Lexeme
  getter : Ident
  setter : Ident
  type : List Char
  typeLexemes : List Lexeme
  name : List Char
  nameLexeme : Lexeme

namespace Frame

open Accessors.Span

variable (f : Frame)

/-- Whether the ampersand in front of the type goes on in it. -/
def joint : Bool := startsPunct f.type

def getterSpans : List Span :=
  [word pubIdent, blank ' ', word fnIdent, blank ' ', lexeme (.ident f.getter), opens .paren, mark '&' false, word selfIdent,
    closes .paren, blank ' ', mark '-' true, mark '>' false, blank ' ',
    text ('&' :: f.type) (.punct '&' f.joint :: f.typeLexemes), blank ' ', opens .brace]
  ++ line 8 ++ [mark '&' false, word selfIdent, text ('.' :: f.name) [.punct '.' false, f.nameLexeme]] ++ line 4 ++ [closes .brace]

def setterSpans : List Span :=
  [word pubIdent, blank ' ', word fnIdent, blank ' ', lexeme (.ident f.setter), opens .paren, mark '&' false, word mutIdent,
    blank ' ', word selfIdent, mark ',' false, blank ' ', word valIdent, mark ':' false, blank ' ', text f.type f.typeLexemes,
    closes .paren, blank ' ', opens .brace]
  ++ line 8 ++ [word selfIdent, text ('.' :: f.name) [.punct '.' false, f.nameLexeme], blank ' ', mark '=' false, blank ' ',
    word valIdent, mark ';' false] ++ line 4 ++ [closes .brace]

def spans : List Span :=
  [text f.header f.headerLexemes, blank ' ', opens .brace] ++ line 4 ++ f.getterSpans ++ line 0 ++ line 4 ++ f.setterSpans
    ++ line 0 ++ [closes .brace] ++ line 0

theorem tidy_spans : tidy f.spans = true := rfl

/-- The header, the type and the name are read as their lexemes where they are written. -/
structure Sound : Prop where
  header : ReadAs f.header f.headerLexemes
  type : ReadAs f.type f.typeLexemes
  name : f.nameLexeme.text = f.name
  selector : ∃ name, Selector name f.nameLexeme

variable {f}

theorem advances_ampersand {type : List Char} {lexemes : List Lexeme} (read : ReadAs type lexemes) (back : List Char)
    (parted : Parted back) :
    AdvancesAll ('&' :: (type ++ back)) (.punct '&' (startsPunct type) :: lexemes) back := by
  have sign := Piece.advances_lexeme (l := .punct '&' false) (by decide)
    (Lexer.starts_no_comment (by decide) (type ++ back))
  rw [parted.starts_punct] at sign
  exact (AdvancesAll.of_advances sign).append (read.advances back parted)

theorem Sound.advances_selected (sound : f.Sound) {c : Char} (ends : c = ' ' ∨ c = '\n') (back : List Char) :
    AdvancesAll ('.' :: (f.name ++ c :: back)) [.punct '.' false, f.nameLexeme] (c :: back) := by
  have listed : c ∈ Lexer.closers ∧ c ∈ '\n' :: Spacing.seams := by rcases ends with rfl | rfl <;> decide
  have legal : f.nameLexeme.Sound ∧ f.nameLexeme.Fits (c :: back) ∧ f.nameLexeme.met (startsPunct (c :: back)) = f.nameLexeme
      ∧ startsPunct (f.name ++ c :: back) = false := by
    rw [← sound.name]
    obtain ⟨name, ⟨field, same, -⟩ | ⟨position, same, -⟩⟩ := sound.selector
    · rw [same]
      refine ⟨trivial, ?_, rfl, starts_punct_of_word field _⟩
      intro d head
      cases head
      exact listed.1
    · rw [same]
      have digits := position_digits position
      refine ⟨Literal.length_of_digits digits.1 digits.2, Literal.ends_cons listed.2 back, rfl, ?_⟩
      cases shape : (Literal.ofNat position).text.toList with
      | nil => exact absurd shape digits.2
      | cons d rest =>
          have plain : ∀ c ∈ "0123456789".toList, punctChars.contains c = false := Lexer.each_of_all (by decide)
          have digit := digits.1 d (by rw [shape]; exact List.mem_cons_self)
          simp only [Lexeme.text, shape]
          rw [List.cons_append, startsPunct, plain d (Literal.digits_listed digit), Bool.false_and]
  have dot := Piece.advances_lexeme (l := .punct '.' false) (by decide)
    (Lexer.starts_no_comment (by decide) (f.name ++ c :: back))
  have field := Piece.advances_lexeme legal.1 legal.2.1
  rw [legal.2.2.1, sound.name] at field
  simp only [Lexeme.met, legal.2.2.2] at dot
  exact (AdvancesAll.of_advances dot).append (.of_advances field)

theorem Sound.placed (sound : f.Sound) (back : List Char) : Placed back f.spans := by
  simp only [spans, getterSpans, setterSpans, line, List.replicate, List.cons_append, List.nil_append, Placed]
  refine ⟨sound.header.advances _ (Parted.cons (by decide) _), ?_, ?_, ?_, ?_, trivial⟩
  · exact advances_ampersand sound.type _ (Parted.cons (by decide) _)
  · exact sound.advances_selected (Or.inr rfl) _
  · exact sound.type.advances _ (Parted.cons (by decide) _)
  · exact sound.advances_selected (Or.inl rfl) _

/-- The accessors are read as the lexemes of their frame. -/
theorem Sound.advances (sound : f.Sound) (back : List Char) :
    AdvancesAll (charsAll f.spans ++ back) (lexemesAll f.spans) back :=
  advances_all f.tidy_spans (sound.placed back)

end Frame

end Accessors
