import Accessors.Proofs.PartedTokens

/-!
Texts that are put together from blanks, lexemes and texts of their own. Where each part is read as such in front of
the next one, the lexer finds the lexemes of all parts in their order.
-/

namespace Accessors

open Lexer (AdvancesAll closers punctChars isGap startsPunct)

/-- A part of a text: a blank, a lexeme, or a text of its own with the lexemes that it is read as. -/
inductive Span where
  | blank (c : Char)
  | lexeme (l : Lexeme)
  | text (chars : List Char) (lexemes : List Lexeme)

namespace Span

def chars : Span → List Char
  | blank c => [c]
  | lexeme l => l.text
  | text chars _ => chars

def lexemes : Span → List Lexeme
  | blank _ => []
  | lexeme l => [l]
  | text _ lexemes => lexemes

def charsAll (spans : List Span) : List Char := spans.flatMap chars

def lexemesAll (spans : List Span) : List Lexeme := spans.flatMap lexemes

/-- The first character of spans, where no name is the first of them. -/
def first? : List Span → Option Char
  | blank c :: _ => some c
  | lexeme (.punct c _) :: _ => some c
  | lexeme (.opening d) :: _ => some d.opening
  | lexeme (.closing d) :: _ => some d.closing
  | text (c :: _) _ :: _ => some c
  | _ => none

/-- Whether a blank or a lexeme is read as such in front of spans. -/
def standsBefore (rest : List Span) : Span → Bool
  | blank c => isGap c
  | lexeme (.ident _) => (first? rest).any closers.contains
  | lexeme (.punct c joint) => punctChars.contains c && c != '\'' && c != '/' &&
      match rest with
      | lexeme (.ident _) :: _ => !joint
      | rest => (first? rest).any fun d => d != '/' && joint == punctChars.contains d
  | lexeme (.opening _) => true
  | lexeme (.closing _) => true
  | lexeme _ => false
  | text _ _ => true

def tidy : List Span → Bool
  | [] => true
  | span :: rest => standsBefore rest span && tidy rest

/-- The texts of their own are read where they stand, in front of the given text. -/
def Placed (back : List Char) : List Span → Prop
  | [] => True
  | text chars lexemes :: rest =>
      AdvancesAll (chars ++ (charsAll rest ++ back)) lexemes (charsAll rest ++ back) ∧ Placed back rest
  | _ :: rest => Placed back rest

variable {spans rest : List Span} {back : List Char}

theorem head_of_first {c : Char} (first : first? spans = some c) : (charsAll spans ++ back).head? = some c := by
  unfold first? at first
  split at first <;> cases first <;> rfl

theorem starts_punct_of_head {text : List Char} {c : Char} (first : text.head? = some c) (slash : c ≠ '/') :
    startsPunct text = punctChars.contains c := by
  obtain ⟨more, rfl⟩ := List.head?_eq_some_iff.mp first
  simp [startsPunct, Lexer.starts_no_comment slash]

/-- A word begins no operator. -/
theorem starts_punct_of_word (name : Ident) (text : List Char) : startsPunct (name.text.toList ++ text) = false := by
  obtain ⟨c, more, shape, opens⟩ := Lexer.word_opens name
  obtain ⟨-, punct, -⟩ := Lexer.ident_start_plain opens
  rw [shape, List.cons_append, startsPunct, punct, Bool.false_and]

theorem advances_span {span : Span} (stands : standsBefore rest span = true) (own : ∀ chars lexemes, span ≠ text chars lexemes) :
    AdvancesAll (span.chars ++ (charsAll rest ++ back)) span.lexemes (charsAll rest ++ back) := by
  cases span with
  | blank c =>
      refine Lexer.advances_taken (n := 1) ?_
      have gap : isGap c = true := stands
      simp [Lexer.taken?, chars, gap, lexemes]
  | lexeme l =>
      cases l with
      | ident name =>
          obtain ⟨c, first, closer⟩ := (Option.any_eq_true _ _).mp stands
          refine .of_advances (Piece.advances_lexeme (l := .ident name) trivial ?_)
          intro d head
          rw [head_of_first first] at head
          cases head
          simpa using closer
      | punct c joint =>
          simp only [standsBefore, Bool.and_eq_true, List.contains_iff_mem, bne_iff_ne] at stands
          obtain ⟨⟨⟨punct, quote⟩, slash⟩, joins⟩ := stands
          have same : joint = startsPunct (charsAll rest ++ back) := by
            split at joins
            · next name more =>
                have word : startsPunct (charsAll (lexeme (.ident name) :: more) ++ back) = false := by
                  have split : charsAll (lexeme (.ident name) :: more) ++ back = name.text.toList ++ (charsAll more ++ back) := by
                    simp [charsAll, chars, Lexeme.text]
                  rw [split, starts_punct_of_word]
                simpa [word] using joins
            · obtain ⟨d, first, plain⟩ := (Option.any_eq_true _ _).mp joins
              simp only [Bool.and_eq_true, bne_iff_ne, beq_iff_eq] at plain
              rw [plain.2, starts_punct_of_head (head_of_first first) plain.1]
          have advances := Piece.advances_lexeme (l := .punct c joint) ⟨punct, quote⟩
            (Lexer.starts_no_comment slash (charsAll rest ++ back))
          rw [← same] at advances
          exact .of_advances advances
      | opening d => exact .of_advances (Lexer.advances_opening d _)
      | closing d => exact .of_advances (Lexer.advances_closing d _)
      | literal name => cases stands
      | lifetime name => cases stands
  | text chars lexemes => exact absurd rfl (own chars lexemes)

/-- The lexemes of tidy spans are read in their order. -/
theorem advances_all (neat : tidy spans = true) (placed : Placed back spans) :
    AdvancesAll (charsAll spans ++ back) (lexemesAll spans) back := by
  induction spans with
  | nil => exact .nothing back
  | cons span rest ih =>
      obtain ⟨stands, later⟩ := Bool.and_eq_true_iff.mp neat
      have split : charsAll (span :: rest) ++ back = span.chars ++ (charsAll rest ++ back) := by simp [charsAll]
      rw [split]
      cases span with
      | text chars lexemes => exact placed.1.append (ih later placed.2)
      | blank c => exact (advances_span stands (by simp)).append (ih later placed)
      | lexeme l => exact (advances_span stands (by simp)).append (ih later placed)

end Span

end Accessors
