import Accessors.Proofs.LexedLeaves
import Accessors.Token.Tree

/-!
Text that is written from tokens. A glyph is a token with its place in the text: a word, a lifetime, a text
literal, a punctuation character, or a bracketed group, and the spaces between them. Where no two words touch, the
lexer finds the tokens that were written, and a punctuation character is joint just where another operator
character or a lifetime stands directly behind it.
-/

namespace Accessors

inductive Glyph where
  | blank
  | mark (c : Char)
  | word (name : Ident)
  | lifetime (name : Lifetime)
  | literal (name : TextLiteral)
  | group (delimiter : Delimiter) (inside : List Glyph)
  deriving Inhabited

namespace Glyph

mutual

/-- The text of a glyph. -/
def chars : Glyph → List Char
  | blank => [' ']
  | mark c => [c]
  | word name => name.text.toList
  | lifetime l => l.text.toList
  | literal l => l.text.toList
  | group d inside => d.opening :: (charsAll inside ++ [d.closing])

def charsAll : List Glyph → List Char
  | [] => []
  | g :: rest => g.chars ++ charsAll rest

end

/-- Whether a punctuation character in front of these is joint. -/
def joins : List Glyph → Bool
  | mark _ :: _ => true
  | lifetime _ :: _ => true
  | _ => false

mutual

/-- The tokens of a glyph that is followed by others. -/
def treesBefore (rest : List Glyph) : Glyph → List TokenTree
  | blank => []
  | mark c => [.leaf (.punct c (joins rest))]
  | word name => [.leaf (.ident name)]
  | lifetime l => [.leaf (.lifetime l)]
  | literal l => [.leaf (.literal l.toLiteral)]
  | group d inside => [.group d (trees inside)]

/-- The tokens that glyphs write. -/
def trees : List Glyph → List TokenTree
  | [] => []
  | g :: rest => treesBefore rest g ++ trees rest

end

mutual

/-- How many tokens a glyph writes, the two delimiters of a group included. -/
def weight : Glyph → Nat
  | blank => 0
  | group _ inside => weightAll inside + 2
  | _ => 1

def weightAll : List Glyph → Nat
  | [] => 0
  | g :: rest => g.weight + weightAll rest

end

/-- Whether the first glyph is one that may not stand directly behind a word. -/
def opensWord : List Glyph → Bool
  | word _ :: _ => true
  | lifetime _ :: _ => true
  | literal _ :: _ => true
  | _ => false

mutual

/-- Whether the tokens stay apart: no word touches another, and a text literal has a space behind it. -/
def apartBefore (rest : List Glyph) : Glyph → Bool
  | blank => true
  | mark c => Lexer.marks.contains c
  | word _ => !opensWord rest
  | lifetime _ => !opensWord rest
  | literal _ => match rest with | blank :: _ => true | _ => false
  | group _ inside => apart inside

def apart : List Glyph → Bool
  | [] => true
  | g :: rest => apartBefore rest g && apart rest

end

/-- A word of the language. -/
abbrev keyword (text : String)
    (whole : text.toList ≠ [] ∧ Lexer.identLength text.toList = text.toList.length := by decide) : Glyph :=
  .word ⟨text, whole⟩

/-- The path separator. -/
abbrev colons : List Glyph := [mark ':', mark ':']

abbrev comma : List Glyph := [mark ',', blank]

abbrev plus : List Glyph := [blank, mark '+', blank]

/-- Several things with a separator between each two. -/
def between (separator : List Glyph) : List (List Glyph) → List Glyph
  | [] => []
  | [only] => only
  | first :: second :: rest => first ++ separator ++ between separator (second :: rest)

section

variable (g : Glyph) (front back rest : List Glyph)

@[simp] theorem chars_all_nil : charsAll [] = [] := rfl

@[simp] theorem chars_all_cons : charsAll (g :: rest) = g.chars ++ charsAll rest := rfl

@[simp] theorem chars_all_append : charsAll (front ++ back) = charsAll front ++ charsAll back := by
  induction front with
  | nil => rfl
  | cons g front ih => simp [ih]

@[simp] theorem trees_nil : trees [] = [] := rfl

@[simp] theorem trees_blank : trees (blank :: rest) = trees rest := rfl

@[simp] theorem trees_mark (c : Char) : trees (mark c :: rest) = .leaf (.punct c (joins rest)) :: trees rest := rfl

@[simp] theorem trees_word (name : Ident) : trees (word name :: rest) = .leaf (.ident name) :: trees rest := rfl

@[simp] theorem trees_lifetime (l : Lifetime) : trees (lifetime l :: rest) = .leaf (.lifetime l) :: trees rest := rfl

@[simp] theorem trees_literal (l : TextLiteral) :
    trees (literal l :: rest) = .leaf (.literal l.toLiteral) :: trees rest := rfl

@[simp] theorem trees_group (d : Delimiter) (inside : List Glyph) :
    trees (group d inside :: rest) = .group d (trees inside) :: trees rest := rfl

@[simp] theorem weight_nil : weightAll [] = 0 := rfl

@[simp] theorem weight_cons : weightAll (g :: rest) = g.weight + weightAll rest := rfl

@[simp] theorem weight_append : weightAll (front ++ back) = weightAll front + weightAll back := by
  induction front with
  | nil => simp
  | cons g front ih => simp [ih, Nat.add_assoc]

theorem weight_pos {gs : List Glyph} (solid : trees gs ≠ []) : 0 < weightAll gs := by
  induction gs with
  | nil => exact absurd rfl solid
  | cons g rest ih =>
      rw [weight_cons]
      cases g with
      | blank => exact Nat.lt_of_lt_of_le (ih solid) (Nat.le_add_left _ _)
      | group d inside => simp only [weight]; omega
      | _ => exact Nat.lt_of_lt_of_le Nat.one_pos (Nat.le_add_right 1 _)

/-- A glyph that writes a token writes one tree. -/
theorem trees_length_append : (trees (front ++ back)).length = (trees front).length + (trees back).length := by
  induction front with
  | nil => simp
  | cons g front ih =>
      cases g <;> simp [ih] <;> omega

theorem apart_append (first : apart front = true) (second : apart back = true) (opens : opensWord back = false) :
    apart (front ++ back) = true := by
  induction front with
  | nil => exact second
  | cons g front ih =>
      simp only [apart, Bool.and_eq_true] at first
      have behind := ih first.2
      cases front with
      | nil =>
          cases g <;> simp_all [apart, apartBefore]
      | cons h front =>
          cases g <;> cases h <;> simp_all [apart, apartBefore, opensWord]

end

@[simp] theorem apart_nil : apart [] = true := rfl

@[simp] theorem apart_cons (g : Glyph) (rest : List Glyph) : apart (g :: rest) = (apartBefore rest g && apart rest) := rfl

@[simp] theorem apart_mark_cons {c : Char} (listed : c ∈ Lexer.marks) (rest : List Glyph) :
    apart (mark c :: rest) = apart rest := by
  simp [apartBefore, listed]

@[simp] theorem apart_blank_cons (rest : List Glyph) : apart (blank :: rest) = apart rest := rfl

/-- A punctuation character may stand behind anything, and anything behind it. -/
theorem apart_mark {c : Char} (listed : c ∈ Lexer.marks) {front back : List Glyph} (first : apart front = true)
    (second : apart back = true) : apart (front ++ mark c :: back) = true :=
  apart_append front (mark c :: back) first (by rw [apart_mark_cons listed, second]) rfl

theorem apart_blank {front back : List Glyph} (first : apart front = true) (second : apart back = true) :
    apart (front ++ blank :: back) = true :=
  apart_append front (blank :: back) first second rfl

theorem apart_between {separator : List Glyph} (opens : ∀ rest, opensWord (separator ++ rest) = false)
    (step : ∀ rest, apart rest = true → apart (separator ++ rest) = true) {pieces : List (List Glyph)}
    (each : ∀ piece ∈ pieces, apart piece = true) : apart (between separator pieces) = true := by
  fun_induction between separator pieces with
  | case1 => rfl
  | case2 only => exact each only List.mem_cons_self
  | case3 first second rest ih =>
      have behind := ih fun piece member => each piece (List.mem_cons_of_mem first member)
      rw [List.append_assoc]
      exact apart_append first _ (each first List.mem_cons_self) (step _ behind) (opens _)

theorem apart_colons {pieces : List (List Glyph)} (each : ∀ piece ∈ pieces, apart piece = true) :
    apart (between colons pieces) = true :=
  apart_between (fun _ => rfl) (fun rest tidy => by simpa [apartBefore, Lexer.marks] using tidy) each

theorem apart_colons_cons {pieces : List (List Glyph)} (each : ∀ piece ∈ pieces, apart piece = true) :
    apart (colons ++ between colons pieces) = true := by
  simpa [apartBefore, Lexer.marks] using apart_colons each

theorem apart_comma {pieces : List (List Glyph)} (each : ∀ piece ∈ pieces, apart piece = true) :
    apart (between comma pieces) = true :=
  apart_between (fun _ => rfl) (fun rest tidy => by simpa [apartBefore, Lexer.marks] using tidy) each

theorem apart_plus {pieces : List (List Glyph)} (each : ∀ piece ∈ pieces, apart piece = true) :
    apart (between plus pieces) = true :=
  apart_between (fun _ => rfl) (fun rest tidy => by simpa [apartBefore, Lexer.marks] using tidy) each

/-! Several things with a separator between each two. -/

section

variable (separator : List Glyph)

@[simp] theorem between_cons_cons (g : Glyph) (first : List Glyph) (more : List (List Glyph)) :
    between separator ((g :: first) :: more) = g :: between separator (first :: more) := by
  cases more <;> rfl

/-- The first thing, and the others with a separator in front of each. -/
theorem between_cons (first : List Glyph) (more : List (List Glyph)) :
    between separator (first :: more) = first ++ between separator ([] :: more) := by
  cases more <;> simp [between]

theorem between_append_last (front : List (List Glyph)) (last more : List Glyph) :
    between separator (front ++ [last ++ more]) = between separator (front ++ [last]) ++ more := by
  induction front with
  | nil => rfl
  | cons first front ih =>
      have shape : ∀ x, between separator (first :: (front ++ [x]))
          = first ++ separator ++ between separator (front ++ [x]) := by
        intro x
        cases front <;> rfl
      rw [List.cons_append, List.cons_append, shape, shape, ih]
      simp

theorem weight_le_between {piece : List Glyph} {pieces : List (List Glyph)} (member : piece ∈ pieces) :
    weightAll piece ≤ weightAll (between separator pieces) := by
  fun_induction between separator pieces with
  | case1 => cases member
  | case2 only =>
      obtain rfl := List.mem_singleton.mp member
      exact Nat.le_refl _
  | case3 first second rest ih =>
      simp only [weight_append]
      rcases List.mem_cons.mp member with rfl | later
      · omega
      · have bound := ih later
        omega

end

end Glyph

/-! The tokens of a text put together again are the trees that were written. -/

namespace Glyph

open TokenTree (lexemesAll Forest ofLexemes)

mutual

theorem size_trees_before (rest : List Glyph) (g : Glyph) : TokenTree.sizeAll (treesBefore rest g) = g.weight := by
  cases g with
  | group d inside => simp [treesBefore, TokenTree.size, weight, size_trees inside]
  | _ => rfl

theorem size_trees (gs : List Glyph) : TokenTree.sizeAll (trees gs) = weightAll gs := by
  cases gs with
  | nil => rfl
  | cons g rest => rw [trees, TokenTree.sizeAll_append, size_trees_before, size_trees rest, weight_cons]

end

mutual

theorem push_trees_before (rest : List Glyph) (g : Glyph) (forest : Forest) :
    (lexemesAll (treesBefore rest g)).foldr Forest.push forest
      = ⟨treesBefore rest g ++ forest.inside, forest.around⟩ := by
  cases g with
  | group d inside =>
      simp [treesBefore, TokenTree.lexemes, Forest.push, push_trees inside]
  | _ => rfl

theorem push_trees (gs : List Glyph) (forest : Forest) :
    (lexemesAll (trees gs)).foldr Forest.push forest = ⟨trees gs ++ forest.inside, forest.around⟩ := by
  cases gs with
  | nil => rfl
  | cons g rest =>
      rw [trees, TokenTree.lexemesAll_append, List.foldr_append, push_trees rest, push_trees_before, List.append_assoc]

end

theorem of_lexemes_trees (gs : List Glyph) : ofLexemes (lexemesAll (trees gs)) = trees gs := by
  rw [ofLexemes, push_trees, List.append_nil]

mutual

theorem lexemes_trees_before_length (rest : List Glyph) (g : Glyph) :
    (lexemesAll (treesBefore rest g)).length = g.weight := by
  cases g with
  | group d inside => simp [treesBefore, TokenTree.lexemes, weight, lexemes_trees_length inside]
  | _ => rfl

theorem lexemes_trees_length (gs : List Glyph) : (lexemesAll (trees gs)).length = weightAll gs := by
  cases gs with
  | nil => rfl
  | cons g rest =>
      rw [trees, TokenTree.lexemesAll_append, List.length_append, lexemes_trees_before_length,
        lexemes_trees_length rest, weight_cons]

end

end Glyph

/-! Reading the text. -/

namespace Lexer

/-- The lexer reads lexemes off the front of a text and goes on with what is behind them. -/
def Takes (text : List Char) (lexemes : List Lexeme) (rest : List Char) : Prop :=
  ∀ (most : Nat) (pos : Pos) (opened : List (Delimiter × Pos)) (done : List Token), text.length < most →
    ∃ (read : List Token) (most' : Nat) (pos' : Pos), read.map Token.lexeme = lexemes ∧ rest.length < most'
      ∧ tokensFrom most text pos opened done = tokensFrom most' rest pos' opened (read.reverse ++ done)

theorem takes_nothing (text : List Char) : Takes text [] text :=
  fun most pos _ _ enough => ⟨[], most, pos, rfl, enough, rfl⟩

theorem Takes.append {text middle rest : List Char} {first second : List Lexeme} (front : Takes text first middle)
    (back : Takes middle second rest) : Takes text (first ++ second) rest := by
  intro most pos opened done enough
  obtain ⟨read, most', pos', same, enough', step⟩ := front most pos opened done enough
  obtain ⟨read', most'', pos'', same', enough'', step'⟩ := back most' pos' opened (read.reverse ++ done) enough'
  refine ⟨read ++ read', most'', pos'', by rw [List.map_append, same, same'], enough'', ?_⟩
  rw [step, step', List.reverse_append, List.append_assoc]

/-- More rounds than characters find no more blanks. -/
theorem gap_length_stable {most : Nat} {text : List Char} (enough : text.length ≤ most) :
    gapLength (most + 1) text = gapLength most text := by
  induction most generalizing text with
  | zero =>
      obtain rfl : text = [] := List.eq_nil_of_length_eq_zero (Nat.le_zero.mp enough)
      rfl
  | succ most ih =>
      cases text with
      | nil => rfl
      | cons c rest =>
          have fewer : ∀ n, (rest.drop n).length ≤ most := by
            intro n
            simp only [List.length_drop, List.length_cons] at enough ⊢
            omega
          rw [gapLength, gapLength]
          split
          · rw [ih (by simpa using fewer 0)]
          · split
            · rfl
            · next n _ => rw [List.drop_succ_cons, ih (fewer n)]

theorem takes_blank (text : List Char) : Takes (' ' :: text) [] text := by
  intro most pos opened done enough
  obtain ⟨most, rfl⟩ := Nat.exists_eq_succ_of_ne_zero (Nat.ne_of_gt (Nat.lt_of_le_of_lt (Nat.zero_le _) enough))
  simp only [List.length_cons] at enough
  refine ⟨[], most + 1, pos.next ' ', rfl, by omega, ?_⟩
  have gap : gapLength (most + 1) (' ' :: text) = gapLength (most + 1) text + 1 := by
    have blank : gapLength (most + 1) (' ' :: text) = gapLength most text + 1 := rfl
    rw [blank, gap_length_stable (by omega)]
  simp only [tokensFrom, gap]
  rfl

/-- Where no blank and no comment begins, the next lexeme does. -/
theorem tokens_from_solid {c : Char} {text : List Char} (solid : isGap c = false)
    (plain : startsComment (c :: text) = false) (most : Nat) (pos : Pos) (opened : List (Delimiter × Pos)) (done : List Token) :
    tokensFrom (most + 1) (c :: text) pos opened done
      = match Delimiter.ofOpening? c, Delimiter.ofClosing? c with
        | some d, _ => tokensFrom most text (pos.next c) ((d, pos) :: opened) (⟨.opening d, pos⟩ :: done)
        | none, some d =>
            match opened with
            | (e, _) :: opened =>
                if e = d then tokensFrom most text (pos.next c) opened (⟨.closing d, pos⟩ :: done) else .error pos
            | [] => .error pos
        | none, none =>
            match leaf? (c :: text) with
            | none => .error pos
            | some (lexeme, n) =>
                tokensFrom most ((c :: text).drop n) (pos.after ((c :: text).take n)) opened (⟨lexeme, pos⟩ :: done) := by
  have noComment : commentLength (c :: text) = 0 := by
    unfold commentLength
    split <;> simp_all [startsComment]
  have noDoc : docComment? (c :: text) = none := by
    unfold docComment?
    split <;> simp_all [startsComment]
  have gap : gapLength (most + 1) (c :: text) = 0 := by
    simp [gapLength, solid, noComment]
  simp only [tokensFrom, gap, List.take_zero, List.drop_zero, noDoc]
  rfl

/-- A text is read from its first character on, unless this is a byte order mark. -/
theorem tokens_of_list {text : List Char} (known : ∀ c, text.head? = some c → c ≠ byteOrderMark) :
    tokens (String.ofList text) = tokensFrom (text.length + 1) text Pos.start [] [] := by
  rw [tokens, String.toList_ofList]
  cases text with
  | nil => rfl
  | cons c rest => simp only [if_neg (known c rfl), List.length_cons]

/-- A leaf whose first character is no blank and no delimiter, where no comment begins. -/
theorem takes_leaf_here {front : List Char} {lexeme : Lexeme} {text : List Char}
    (read : leaf? (front ++ text) = some (lexeme, front.length)) {c : Char} (first : front.head? = some c)
    (solid : isGap c = false ∧ Delimiter.ofOpening? c = none ∧ Delimiter.ofClosing? c = none)
    (plain : startsComment (front ++ text) = false) : Takes (front ++ text) [lexeme] text := by
  intro most pos opened done enough
  obtain ⟨most, rfl⟩ := Nat.exists_eq_succ_of_ne_zero (Nat.ne_of_gt (Nat.lt_of_le_of_lt (Nat.zero_le _) enough))
  obtain ⟨gap, opening, closing⟩ := solid
  match front with
  | [] => cases first
  | d :: front =>
      obtain rfl : d = c := by simpa using first
      simp only [List.length_append, List.length_cons] at enough
      refine ⟨[⟨lexeme, pos⟩], most, pos.after (d :: front), rfl, by omega, ?_⟩
      rw [List.cons_append] at plain
      rw [List.cons_append, Nat.succ_eq_add_one, tokens_from_solid gap plain, opening, closing]
      rw [List.cons_append] at read
      simp only [read]
      rw [← List.cons_append, List.drop_left, List.take_left]
      rfl

/-- A leaf whose first character is no blank, no delimiter and no slash. -/
theorem takes_leaf {front : List Char} {lexeme : Lexeme} {text : List Char}
    (read : leaf? (front ++ text) = some (lexeme, front.length)) {c : Char} (first : front.head? = some c)
    (solid : isGap c = false ∧ Delimiter.ofOpening? c = none ∧ Delimiter.ofClosing? c = none ∧ c ≠ '/') :
    Takes (front ++ text) [lexeme] text := by
  obtain ⟨gap, opening, closing, slash⟩ := solid
  refine takes_leaf_here read first ⟨gap, opening, closing⟩ ?_
  obtain ⟨front, rfl⟩ := List.head?_eq_some_iff.mp first
  exact starts_no_comment slash _

theorem takes_group (d : Delimiter) {inside : List Char} {lexemes : List Lexeme} {text : List Char}
    (inner : Takes (inside ++ d.closing :: text) lexemes (d.closing :: text)) :
    Takes (d.opening :: (inside ++ d.closing :: text)) (.opening d :: (lexemes ++ [.closing d])) text := by
  intro most pos opened done enough
  obtain ⟨most, rfl⟩ := Nat.exists_eq_succ_of_ne_zero (Nat.ne_of_gt (Nat.lt_of_le_of_lt (Nat.zero_le _) enough))
  have plainOpening : isGap d.opening = false ∧ d.opening ≠ '/' := by cases d <;> decide
  have plainClosing : isGap d.closing = false ∧ d.closing ≠ '/' ∧ Delimiter.ofOpening? d.closing = none := by
    cases d <;> decide
  have start : tokensFrom (most + 1) (d.opening :: (inside ++ d.closing :: text)) pos opened done
      = tokensFrom most (inside ++ d.closing :: text) (pos.next d.opening) ((d, pos) :: opened)
          (⟨.opening d, pos⟩ :: done) := by
    rw [tokens_from_solid plainOpening.1 (starts_no_comment plainOpening.2 _), Delimiter.ofOpening?_opening]
  obtain ⟨read, most', pos', same, enough', step⟩ := inner most (pos.next d.opening) ((d, pos) :: opened)
    (⟨.opening d, pos⟩ :: done) (Nat.lt_of_succ_lt_succ enough)
  obtain ⟨most', rfl⟩ := Nat.exists_eq_succ_of_ne_zero (Nat.ne_of_gt (Nat.lt_of_le_of_lt (Nat.zero_le _) enough'))
  refine ⟨⟨.opening d, pos⟩ :: (read ++ [⟨.closing d, pos'⟩]), most', pos'.next d.closing, by simp [same],
    Nat.lt_of_succ_lt_succ enough', ?_⟩
  rw [Nat.succ_eq_add_one, start, step, Nat.succ_eq_add_one, tokens_from_solid plainClosing.1 (starts_no_comment plainClosing.2.1 _),
    plainClosing.2.2, Delimiter.ofClosing?_closing]
  simp

end Lexer

namespace Glyph

open Lexer

/-- What may stand behind glyphs: the end of the text or of a group. -/
def Ends (text : List Char) : Prop := text = [] ∨ ∃ (d : Delimiter) (rest : List Char), text = d.closing :: rest

theorem literal_opens (name : TextLiteral) : ∃ c rest, name.text.toList = c :: rest ∧ c ∈ ['"', 'r'] := by
  have opens := Literal.opens_text_of_is_text name.isText
  cases shape : name.text.toList with
  | nil => simp [Literal.opensText, shape] at opens
  | cons c rest => exact ⟨c, rest, rfl, by simpa [Literal.opensText, shape] using opens⟩

theorem starts_punct_cons {c : Char} (punct : c ∈ punctChars) (slash : c ≠ '/') (text : List Char) :
    startsPunct (c :: text) = true := by
  simp [startsPunct, startsComment, slash, punct]

/-- The first character behind a glyph: whether it makes a punctuation character joint, and whether a word may end
before it. -/
theorem first_char {rest : List Glyph} {text : List Char} (tidy : apart rest = true) (ends : Ends text) :
    startsPunct (charsAll rest ++ text) = joins rest ∧ (opensWord rest = false → Closes (charsAll rest ++ text))
      ∧ ∀ c, (charsAll rest ++ text).head? = some c → c ≠ byteOrderMark := by
  match rest with
  | [] =>
      rcases ends with rfl | ⟨d, more, rfl⟩
      · refine ⟨rfl, ?_, ?_⟩
        · intro _ c first
          cases first
        · intro c first
          cases first
      · refine ⟨by cases d <;> rfl, fun _ => closes_cons (by cases d <;> decide) more, fun c first => ?_⟩
        obtain rfl : d.closing = c := by simpa using first
        cases d <;> decide
  | blank :: rest =>
      refine ⟨rfl, fun _ => closes_cons (by decide) _, fun c first => ?_⟩
      obtain rfl : ' ' = c := by simpa [chars] using first
      decide
  | mark c :: rest =>
      simp only [apart, apartBefore, Bool.and_eq_true, List.contains_iff_mem] at tidy
      have listed := tidy.1
      have known : ∀ c ∈ marks, c ≠ byteOrderMark := each_of_all (by decide)
      obtain ⟨punct, slash, -⟩ := marks_plain c listed
      refine ⟨starts_punct_cons punct slash _, fun _ => closes_cons (List.mem_append_right _ listed) _,
        fun d first => ?_⟩
      obtain rfl : c = d := by simpa [chars] using first
      exact known c listed
  | word name :: rest =>
      obtain ⟨c, more, shape, opens⟩ := word_opens name
      obtain ⟨-, punct, -⟩ := ident_start_plain opens
      refine ⟨?_, fun closed => (by simp [opensWord] at closed), fun d first => ?_⟩
      · simp only [chars_all_cons, chars, shape, List.cons_append, startsPunct, punct]
        rfl
      · obtain rfl : c = d := by simpa [chars, shape] using first
        rintro rfl
        revert opens
        decide +kernel
  | lifetime l :: rest =>
      refine ⟨?_, fun closed => (by simp [opensWord] at closed), fun d first => ?_⟩
      · simp only [chars_all_cons, chars, Lifetime.text, String.toList_append]
        exact starts_punct_cons (by decide) (by decide) _
      · obtain rfl : '\'' = d := by simpa [chars, Lifetime.text] using first
        decide
  | literal name :: rest =>
      obtain ⟨c, more, shape, quote⟩ := literal_opens name
      have known : ∀ c ∈ ['"', 'r'], punctChars.contains c = false ∧ c ≠ byteOrderMark := each_of_all (by decide)
      refine ⟨?_, fun closed => (by simp [opensWord] at closed), fun d first => ?_⟩
      · simp only [chars_all_cons, chars, shape, List.cons_append, startsPunct, (known c quote).1]
        rfl
      · obtain rfl : c = d := by simpa [chars, shape] using first
        exact (known c quote).2
  | group d inside :: rest =>
      refine ⟨by cases d <;> rfl, fun _ => closes_cons (by cases d <;> decide) _, fun c first => ?_⟩
      obtain rfl : d.opening = c := by simpa [chars] using first
      cases d <;> decide

mutual

theorem takes_glyph (g : Glyph) (rest : List Glyph) {text : List Char} (tidy : apart (g :: rest) = true)
    (ends : Ends text) :
    Takes (g.chars ++ (charsAll rest ++ text)) (TokenTree.lexemesAll (treesBefore rest g)) (charsAll rest ++ text) := by
  simp only [apart, Bool.and_eq_true] at tidy
  obtain ⟨joint, closes, -⟩ := first_char tidy.2 ends
  cases g with
  | blank => exact takes_blank _
  | mark c =>
      have listed : c ∈ marks := by simpa [apartBefore] using tidy.1
      have known : ∀ c ∈ marks, isGap c = false ∧ Delimiter.ofOpening? c = none ∧ Delimiter.ofClosing? c = none
          ∧ c ≠ '/' := each_of_all (by decide)
      have read := leaf_of_mark listed (charsAll rest ++ text)
      rw [joint] at read
      exact takes_leaf read rfl (known c listed)
  | word name =>
      obtain ⟨c, more, shape, opens⟩ := word_opens name
      obtain ⟨gap, -, opening, closing, -, -, slash⟩ := ident_start_plain opens
      exact takes_leaf (leaf_of_word name (closes (by simpa [apartBefore] using tidy.1)))
        (by simp [chars, shape]) ⟨gap, opening, closing, slash⟩
  | lifetime l =>
      exact takes_leaf (leaf_of_lifetime l (closes (by simpa [apartBefore] using tidy.1)))
        (by simp [chars, Lifetime.text]) (by decide : isGap '\'' = false ∧ _)
  | literal name =>
      obtain ⟨c, more, shape, quote⟩ := literal_opens name
      have known : ∀ c ∈ ['"', 'r'], isGap c = false ∧ Delimiter.ofOpening? c = none
          ∧ Delimiter.ofClosing? c = none ∧ c ≠ '/' := each_of_all (by decide)
      match rest, tidy with
      | blank :: rest, _ =>
          exact takes_leaf (leaf_of_text_literal name.isText _) (by simp [chars, shape]) (known c quote)
  | group d inside =>
      have inner := takes_trees inside tidy.1 (Or.inr ⟨d, charsAll rest ++ text, rfl⟩)
      simpa [chars, treesBefore, TokenTree.lexemes] using takes_group d inner

/-- The lexer reads the tokens that glyphs write. -/
theorem takes_trees (gs : List Glyph) {text : List Char} (tidy : apart gs = true) (ends : Ends text) :
    Takes (charsAll gs ++ text) (TokenTree.lexemesAll (trees gs)) text := by
  cases gs with
  | nil => exact takes_nothing text
  | cons g rest =>
      have more := tidy
      simp only [apart, Bool.and_eq_true] at more
      rw [chars_all_cons, List.append_assoc, trees, TokenTree.lexemesAll_append]
      exact (takes_glyph g rest tidy ends).append (takes_trees rest more.2 ends)

end

/-- The tokens of a text that glyphs write. -/
theorem tokens_of_glyphs {gs : List Glyph} (tidy : apart gs = true) :
    ∃ tokens, Lexer.tokens (String.ofList (charsAll gs)) = .ok tokens
      ∧ TokenTree.ofLexemes (tokens.map Token.lexeme) = trees gs ∧ tokens.length = weightAll gs := by
  have takes := takes_trees gs tidy (Or.inl rfl)
  rw [List.append_nil] at takes
  have finished : ∃ tokens, tokensFrom ((charsAll gs).length + 1) (charsAll gs) Pos.start [] [] = .ok tokens
      ∧ tokens.map Token.lexeme = TokenTree.lexemesAll (trees gs) := by
    obtain ⟨read, most, pos, same, enough, step⟩ := takes _ Pos.start [] [] (Nat.lt_succ_self _)
    obtain ⟨most, rfl⟩ := Nat.exists_eq_succ_of_ne_zero (Nat.ne_of_gt enough)
    refine ⟨read, ?_, same⟩
    rw [step]
    simp [tokensFrom, gapLength, docComment?]
  obtain ⟨tokens, read, same⟩ := finished
  refine ⟨tokens, ?_, by rw [same, of_lexemes_trees], ?_⟩
  · have known := (first_char tidy (Or.inl rfl)).2.2
    rw [List.append_nil] at known
    rw [tokens_of_list known, read]
  · rw [← lexemes_trees_length, ← same, List.length_map]

end Glyph

end Accessors
