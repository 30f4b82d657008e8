import Accessors.Token.Lexer
import Accessors.Token.Text

/-!
What the lexer takes off the front of a text that is written from words, lifetimes, text literals and
punctuation. A word or a lifetime is taken whole if a space, a delimiter or punctuation follows it; a text
literal, if a space does.
-/

namespace Accessors.Lexer

open Text (isIdentStart isIdentContinue isBlank)

/-- The punctuation that types are written with. -/
def marks : List Char := ['&', '*', '<', '>', ',', ':', '+', '=', '!', '?', '.', '-']

/-- What may follow a word. -/
def closers : List Char := " \n()[]{};".toList ++ marks

/-- Whether a word may end before a text. -/
def Closes (text : List Char) : Prop := ∀ c, text.head? = some c → c ∈ closers

theorem closes_cons {c : Char} (closer : c ∈ closers) (text : List Char) : Closes (c :: text) := by
  intro d first
  obtain rfl : c = d := by simpa using first
  exact closer

/-- What a list of characters is found to meet, each of them meets. -/
theorem each_of_all {l : List Char} {P : Char → Prop} [DecidablePred P] (all : l.all (fun c => decide (P c)) = true) :
    ∀ c ∈ l, P c :=
  fun c member => of_decide_eq_true (List.all_eq_true.mp all c member)

/-! Which characters begin or continue a word. -/

theorem not_ident_start_of_gap {c : Char} (gap : isGap c = true) : isIdentStart c = false := by
  have table : ∀ n ∈ ([0x20, 0x85, 0xa0, 0x1680, 0x2028, 0x2029, 0x202f, 0x205f, 0x3000, 0x200e, 0x200f]
      ++ List.range' 0x09 5 ++ List.range' 0x2000 11), isIdentStart (Char.ofNat n) = false := by
    decide +kernel
  have listed : c.toNat ∈ ([0x20, 0x85, 0xa0, 0x1680, 0x2028, 0x2029, 0x202f, 0x205f, 0x3000, 0x200e, 0x200f]
      ++ List.range' 0x09 5 ++ List.range' 0x2000 11) := by
    simp only [isGap, isBlank, Bool.or_eq_true, Bool.and_eq_true, beq_iff_eq, decide_eq_true_eq] at gap
    simp only [List.mem_append, List.mem_range'_1, List.mem_cons, List.not_mem_nil]
    omega
  simpa using table c.toNat listed

theorem not_ident_start_of_punct : ∀ c ∈ punctChars ++ "()[]{}\"0123456789".toList, isIdentStart c = false :=
  each_of_all (by decide +kernel)

theorem closers_close : ∀ c ∈ closers, isIdentContinue c = false ∧ c ≠ '#' ∧ c ≠ '"' ∧ c ≠ '\'' :=
  each_of_all (by decide +kernel)

theorem not_digit_of_ident_start {c : Char} (opens : isIdentStart c = true) : c.isDigit = false := by
  cases digit : c.isDigit with
  | false => rfl
  | true =>
      have bounds : 48 ≤ c.toNat ∧ c.toNat ≤ 57 := by
        simpa [Char.isDigit, UInt32.le_iff_toNat_le] using digit
      have table : ∀ n ∈ List.range' 48 10, isIdentStart (Char.ofNat n) = false := by decide
      have closed := table c.toNat (List.mem_range'_1.mpr ⟨bounds.1, by omega⟩)
      rw [Char.ofNat_toNat, opens] at closed
      cases closed

/-- The character that begins a word is none of those the lexer looks for before words. -/
theorem ident_start_plain {c : Char} (opens : isIdentStart c = true) :
    isGap c = false ∧ punctChars.contains c = false ∧ Delimiter.ofOpening? c = none
      ∧ Delimiter.ofClosing? c = none ∧ c ≠ '"' ∧ c ≠ '\'' ∧ c ≠ '/' := by
  have other : ∀ d ∈ punctChars ++ "()[]{}\"0123456789".toList, c ≠ d := by
    intro d listed same
    rw [same, not_ident_start_of_punct d listed] at opens
    cases opens
  refine ⟨?_, ?_, ?_, ?_, other _ (by decide), other _ (by decide), other _ (by decide)⟩
  · cases gap : isGap c with
    | false => rfl
    | true =>
        rw [not_ident_start_of_gap gap] at opens
        cases opens
  · cases punct : punctChars.contains c with
    | false => rfl
    | true => exact absurd rfl (other c (List.mem_append_left _ (List.contains_iff_mem.mp punct)))
  · unfold Delimiter.ofOpening?
    split
    · exact absurd rfl (other _ (by decide))
    · exact absurd rfl (other _ (by decide))
    · exact absurd rfl (other _ (by decide))
    · rfl
  · unfold Delimiter.ofClosing?
    split
    · exact absurd rfl (other _ (by decide))
    · exact absurd rfl (other _ (by decide))
    · exact absurd rfl (other _ (by decide))
    · rfl

/-! Words are no literals. -/

/-- A text that begins with no number sign and no quotation mark. -/
def Tame (text : List Char) : Prop := ∀ c, text.head? = some c → c ≠ '#' ∧ c ≠ '"' ∧ c ≠ '\''

theorem tame_of_word {front : List Char} (word : ∀ c ∈ front, isIdentContinue c = true) {text : List Char}
    (closes : Closes text) : Tame (front ++ text) := by
  intro c first
  cases front with
  | nil => exact (closers_close c (closes c first)).2
  | cons d front =>
      obtain rfl : d = c := by simpa using first
      have follows := word d List.mem_cons_self
      refine ⟨?_, ?_, ?_⟩ <;> rintro rfl <;> revert follows <;> decide

theorem raw_length_of_tame (plain : Char → Bool) {text : List Char} (tame : Tame text) :
    Literal.rawLength plain text = none := by
  cases text with
  | nil => rfl
  | cons c rest =>
      obtain ⟨sign, quote, -⟩ := tame c rfl
      simp [Literal.rawLength, sign, quote]

theorem hex_digit_not_decimal {c : Char} {d : Nat} (digit : c.isDigit = false) (found : Literal.hexDigit? c = some d) :
    ¬ d < 10 := by
  have outside : ¬ ('0' ≤ c ∧ c ≤ '9') := by
    intro inside
    have yes : c.isDigit = true := by simpa [Char.isDigit, Char.le_def] using inside
    rw [digit] at yes
    cases yes
  rw [Literal.hexDigit?, if_neg outside] at found
  split at found
  · cases found
    omega
  · split at found
    · cases found
      omega
    · cases found

/-- A number begins with a digit. -/
theorem number_length_of_not_digit {c : Char} (digit : c.isDigit = false) (rest : List Char) :
    Literal.numberLength (c :: rest) = none := by
  have integer : Literal.integerLength (c :: rest) = none := by
    have decimal : Literal.integerLength (c :: rest) = Literal.digitsLength 10 false (c :: rest) := by
      unfold Literal.integerLength
      split <;> simp_all
    rw [decimal, Literal.digitsLength]
    split
    · rfl
    · cases found : Literal.hexDigit? c with
      | none => rfl
      | some d => simp [hex_digit_not_decimal digit found, digit]
  simp [Literal.numberLength, digit, integer]

/-- A word is a plain identifier, or one behind the raw mark. -/
theorem word_shape (name : Ident) :
    (Literal.identLength name.text.toList = name.text.toList.length
        ∧ ∀ rest, name.text.toList ≠ 'r' :: '#' :: rest)
      ∨ ∃ rest, name.text.toList = 'r' :: '#' :: rest ∧ Literal.identLength rest = rest.length
          ∧ rest ≠ [] ∧ String.ofList rest ∉ neverRaw := by
  have whole := name.whole.2
  by_cases raw : ∃ rest, name.text.toList = 'r' :: '#' :: rest
  · obtain ⟨rest, shape⟩ := raw
    refine Or.inr ⟨rest, shape, ?_⟩
    rw [shape] at whole
    cases found : Literal.identLength rest with
    | zero => simp [identLength, found] at whole
    | succ n =>
        simp only [identLength, found, List.length_cons] at whole
        split at whole
        · cases whole
        · next allowed =>
            have size : n + 1 = rest.length := by omega
            refine ⟨size, ?_, ?_⟩
            · rintro rfl
              cases size
            · rwa [size, List.take_length] at allowed
  · have plain : ∀ rest, name.text.toList ≠ 'r' :: '#' :: rest := fun rest same => raw ⟨rest, same⟩
    rw [ident_length_plain plain] at whole
    exact Or.inl ⟨whole, plain⟩

theorem plain_ident_length_closes {front text : List Char} (whole : Literal.identLength front = front.length)
    (closes : Closes text) : Literal.identLength (front ++ text) = front.length := by
  cases text with
  | nil => rw [List.append_nil, whole]
  | cons c rest => exact Literal.plain_ident_length_append whole (closers_close c (closes c rfl)).1 rest

/-- A word is taken whole where it may end. -/
theorem ident_length_word (name : Ident) {text : List Char} (closes : Closes text) :
    identLength (name.text.toList ++ text) = name.text.toList.length := by
  rcases word_shape name with ⟨whole, plain⟩ | ⟨rest, shape, whole, some, allowed⟩
  · rw [ident_length_plain, plain_ident_length_closes whole closes]
    -- a raw mark would have to reach into what follows
    intro rest raw
    match front : name.text.toList, raw with
    | [], _ => exact name.whole.1 front
    | [c], raw =>
        have behind : text = '#' :: rest := (List.cons.inj raw).2
        exact (closers_close '#' (closes '#' (by rw [behind]; rfl))).2.1 rfl
    | c :: d :: more, raw =>
        simp only [List.cons_append, List.cons.injEq] at raw
        obtain ⟨rfl, rfl, -⟩ := raw
        exact plain more front
  · obtain ⟨n, size⟩ : ∃ n, rest.length = n + 1 :=
      Nat.exists_eq_succ_of_ne_zero (Nat.pos_iff_ne_zero.mp (List.length_pos_iff.mpr some))
    have found := plain_ident_length_closes whole closes
    rw [size] at found
    rw [shape, List.cons_append, List.cons_append, ident_length_raw found]
    · simp [size]
    · rwa [← size, List.take_left]

/-- The characters of a plain identifier. -/
theorem plain_ident_cons {front : List Char} (whole : Literal.identLength front = front.length) (some : front ≠ []) :
    ∃ c rest, front = c :: rest ∧ isIdentStart c = true ∧ ∀ d ∈ rest, isIdentContinue d = true := by
  cases front with
  | nil => exact absurd rfl some
  | cons c rest =>
      refine ⟨c, rest, rfl, ?_, fun d member => Literal.plain_ident_chars whole d (List.mem_cons_of_mem c member)⟩
      cases opens : isIdentStart c with
      | true => rfl
      | false => simp [Literal.identLength, opens] at whole

/-- The first character of a word begins an identifier. -/
theorem word_opens (name : Ident) : ∃ c rest, name.text.toList = c :: rest ∧ isIdentStart c = true := by
  rcases word_shape name with ⟨whole, -⟩ | ⟨rest, shape, -⟩
  · obtain ⟨c, rest, shape, opens, -⟩ := plain_ident_cons whole name.whole.1
    exact ⟨c, rest, shape, opens⟩
  · exact ⟨'r', '#' :: rest, shape, by decide⟩

theorem tame_behind {front : List Char} (word : ∀ d ∈ front, isIdentContinue d = true) {text : List Char}
    (closes : Closes text) {d : Char} {more : List Char} (follows : isIdentContinue d = true)
    (shape : front ++ text = d :: more) : Tame more := by
  cases front with
  | nil =>
      have closed := (closers_close d (closes d (by rw [← List.nil_append text, shape]; rfl))).1
      rw [closed] at follows
      cases follows
  | cons e front =>
      obtain ⟨-, rfl⟩ := List.cons.inj shape
      exact tame_of_word (fun d member => word d (List.mem_cons_of_mem e member)) closes

/-- What is behind the first letter of a word may not be what a string has there. -/
theorem no_string_behind {c : Char} (opens : isIdentStart c = true) {front : List Char}
    (word : ∀ d ∈ front, isIdentContinue d = true) {text : List Char} (closes : Closes text) :
    Literal.stringLength (c :: (front ++ text)) = none ∧ Literal.quotedLength (c :: (front ++ text)) = none := by
  have tame := tame_of_word word closes
  obtain ⟨-, -, -, -, quote, apostrophe, -⟩ := ident_start_plain opens
  constructor
  · unfold Literal.stringLength
    split
    · next same => exact absurd (List.cons.inj same).1 quote
    · next rest same =>
        obtain ⟨rfl, rfl⟩ := List.cons.inj same
        rw [raw_length_of_tame _ tame]
        rfl
    · next same => exact absurd rfl (tame '"' (by rw [(List.cons.inj same).2]; rfl)).2.1
    · next rest same =>
        rw [raw_length_of_tame _ (tame_behind word closes (by decide) (List.cons.inj same).2)]
        rfl
    · next same => exact absurd rfl (tame '"' (by rw [(List.cons.inj same).2]; rfl)).2.1
    · next rest same =>
        rw [raw_length_of_tame _ (tame_behind word closes (by decide) (List.cons.inj same).2)]
        rfl
    · rfl
  · unfold Literal.quotedLength
    split
    · next same => exact absurd rfl (tame '\'' (by rw [(List.cons.inj same).2]; rfl)).2.2
    · next same => exact absurd (List.cons.inj same).1 apostrophe
    · rfl

/-- A word that stands before a text where it may end is no literal. -/
theorem no_literal_of_word (name : Ident) {text : List Char} (closes : Closes text) :
    Literal.length? (name.text.toList ++ text) = none := by
  rcases word_shape name with ⟨whole, -⟩ | ⟨rest, shape, whole, some, -⟩
  · obtain ⟨c, rest, shape, opens, word⟩ := plain_ident_cons whole name.whole.1
    obtain ⟨string, quoted⟩ := no_string_behind opens word closes
    rw [shape, List.cons_append, Literal.length?, string, quoted,
      number_length_of_not_digit (not_digit_of_ident_start opens)]
  · obtain ⟨c, word, rfl, opens, -⟩ := plain_ident_cons whole some
    obtain ⟨-, punct, -, -, quote, -⟩ := ident_start_plain opens
    have sign : c ≠ '#' := by
      rintro rfl
      exact absurd punct (by decide)
    have string : Literal.stringLength ('r' :: '#' :: c :: (word ++ text)) = none := by
      simp [Literal.stringLength, Literal.rawLength, sign, quote]
    rw [shape]
    simp only [List.cons_append]
    rw [Literal.length?, string, number_length_of_not_digit (by decide)]
    rfl

/-- A word with what follows it has no string opening in front. -/
theorem no_string_opening_of_word (name : Ident) {text : List Char} (closes : Closes text) :
    stringOpenings.any (·.isPrefixOf (name.text.toList ++ text)) = false := by
  rcases word_shape name with ⟨whole, -⟩ | ⟨rest, shape, whole, some, -⟩
  · obtain ⟨c, rest, shape, opens, word⟩ := plain_ident_cons whole name.whole.1
    have tame := tame_of_word word closes
    rw [shape, List.cons_append]
    match behind : rest ++ text with
    | [] => simp [stringOpenings, List.isPrefixOf]
    | [d] =>
        obtain ⟨-, quote, apostrophe⟩ := tame d (by rw [behind]; rfl)
        simp [stringOpenings, List.isPrefixOf, Ne.symm quote, Ne.symm apostrophe]
    | d :: e :: more =>
        obtain ⟨sign, quote, apostrophe⟩ := tame d (by rw [behind]; rfl)
        by_cases letter : d = 'r'
        · obtain ⟨sign', quote', -⟩ := tame_behind word closes (by rw [letter]; decide) behind e rfl
          simp [stringOpenings, List.isPrefixOf, Ne.symm sign, Ne.symm quote, Ne.symm apostrophe, Ne.symm sign',
            Ne.symm quote']
        · simp [stringOpenings, List.isPrefixOf, Ne.symm sign, Ne.symm quote, Ne.symm apostrophe, Ne.symm letter]
  · obtain ⟨c, word, rfl, opens, -⟩ := plain_ident_cons whole some
    obtain ⟨-, punct, -, -, quote, -⟩ := ident_start_plain opens
    have sign : c ≠ '#' := by
      rintro rfl
      exact absurd punct (by decide)
    rw [shape]
    simp [stringOpenings, List.isPrefixOf, Ne.symm sign, Ne.symm quote]

/-! The leaves. -/

theorem leaf_of_no_literal {text : List Char} (none : Literal.length? text = none) : leaf? text = plainLeaf? text := by
  unfold leaf?
  split
  · next found =>
      rw [none] at found
      cases found
  · rfl

theorem leaf_of_word (name : Ident) {text : List Char} (closes : Closes text) :
    leaf? (name.text.toList ++ text) = some (.ident name, name.text.toList.length) := by
  have size := ident_length_word name closes
  have opening := no_string_opening_of_word name closes
  rw [leaf_of_no_literal (no_literal_of_word name closes)]
  obtain ⟨c, rest, shape, opens⟩ := word_opens name
  obtain ⟨-, punct, -, -, -, apostrophe, -⟩ := ident_start_plain opens
  have pos : identLength (name.text.toList ++ text) ≠ 0 := by
    rw [size, shape]
    exact Nat.succ_ne_zero _
  have same : Ident.front (name.text.toList ++ text) pos = name := by
    ext1
    simp [Ident.front, size]
  have noPunct : startsPunct (name.text.toList ++ text) = false := by
    rw [shape, List.cons_append, startsPunct, punct]
    rfl
  have whole : name.text.toList ++ text = c :: (rest ++ text) := by rw [shape, List.cons_append]
  rw [plainLeaf?.eq_def]
  split
  · next empty => exact absurd (whole.symm.trans empty) (List.cons_ne_nil _ _)
  · next d more front =>
      obtain rfl : c = d := (List.cons.inj (whole.symm.trans front)).1
      rw [if_neg apostrophe, noPunct, opening, dif_pos pos, same, size]
      rfl

theorem leaf_of_lifetime (l : Lifetime) {text : List Char} (closes : Closes text) :
    leaf? (l.text.toList ++ text) = some (.lifetime l, l.text.toList.length) := by
  have chars : l.text.toList = '\'' :: l.name.text.toList := by simp [Lifetime.text]
  have size := ident_length_word l.name closes
  obtain ⟨c, rest, shape, opens⟩ := word_opens l.name
  have pos : identLength (l.name.text.toList ++ text) ≠ 0 := by
    rw [size, shape]
    exact Nat.succ_ne_zero _
  have same : Ident.front (l.name.text.toList ++ text) pos = l.name := by
    ext1
    simp [Ident.front, size]
  have ends : opensLifetime (l.name.text.toList ++ text) = true := by
    rw [opensLifetime, size, List.drop_left]
    split
    · next rest => exact absurd rfl (closers_close _ (closes '\'' rfl)).2.2.2
    · next rest => exact absurd rfl (closers_close _ (closes '#' rfl)).2.1
    · rfl
  -- a character literal would need an apostrophe behind its one character
  have literal : Literal.length? ('\'' :: (l.name.text.toList ++ text)) = none := by
    obtain ⟨-, punct, -⟩ := ident_start_plain opens
    have escape : c ≠ '\\' := by
      rintro rfl
      revert opens
      decide
    have second : ∀ d, (rest ++ text).head? = some d → d ≠ '\'' := by
      intro d first
      cases rest with
      | nil => exact (closers_close d (closes d first)).2.2.2
      | cons e rest =>
          obtain rfl : e = d := by simpa using first
          rintro rfl
          have char := l.name.chars '\'' (by rw [shape]; simp)
          revert char
          decide
    have quoted : Literal.quotedLength ('\'' :: c :: (rest ++ text)) = none := by
      match behind : rest ++ text with
      | [] => simp [Literal.quotedLength, Literal.Cooked.quotedLength]
      | d :: more => simp [Literal.quotedLength, Literal.Cooked.quotedLength, second d (by rw [behind]; rfl)]
    rw [shape, List.cons_append, Literal.length?, quoted, number_length_of_not_digit (by decide)]
    rfl
  rw [chars, List.cons_append, leaf_of_no_literal literal]
  simp only [plainLeaf?, if_true]
  rw [dif_pos pos, if_pos ends, same, size]
  rfl

/-- A leaf is written as the text that it was read from. -/
theorem text_of_leaf {text : List Char} {lexeme : Lexeme} {n : Nat} (found : leaf? text = some (lexeme, n)) :
    lexeme.text = text.take n ∧ ∀ d, lexeme ≠ .opening d ∧ lexeme ≠ .closing d := by
  unfold leaf? at found
  split at found
  · obtain ⟨rfl, rfl⟩ := Prod.mk.inj (Option.some.inj found)
    exact ⟨by simp [Lexeme.text, Literal.front], by simp⟩
  · unfold plainLeaf? at found
    split at found
    · cases found
    · next c rest =>
        split at found
        · next quote =>
            split at found
            · split at found
              · obtain ⟨rfl, rfl⟩ := Prod.mk.inj (Option.some.inj found)
                exact ⟨by simp [Lexeme.text, Lifetime.text, Ident.front, quote], by simp⟩
              · cases found
            · cases found
        · split at found
          · obtain ⟨rfl, rfl⟩ := Prod.mk.inj (Option.some.inj found)
            exact ⟨by simp [Lexeme.text], by simp⟩
          · split at found
            · cases found
            · split at found
              · obtain ⟨rfl, rfl⟩ := Prod.mk.inj (Option.some.inj found)
                exact ⟨by simp [Lexeme.text, Ident.front], by simp⟩
              · cases found

theorem starts_no_comment {c : Char} (slash : c ≠ '/') (text : List Char) : startsComment (c :: text) = false := by
  simp [startsComment, slash]

theorem punct_plain : ∀ c ∈ punctChars, c ∉ ['"', 'r', 'b', 'c'] ∧ c.isDigit = false ∧ isGap c = false
    ∧ Delimiter.ofOpening? c = none ∧ Delimiter.ofClosing? c = none :=
  each_of_all (by decide)

/-- A punctuation character that opens no comment and no word is taken by itself. -/
theorem leaf_of_punct {c : Char} (punct : c ∈ punctChars) (apostrophe : c ≠ '\'') {text : List Char}
    (plain : startsComment (c :: text) = false) : leaf? (c :: text) = some (.punct c (startsPunct text), 1) := by
  obtain ⟨letters, digit, -⟩ := punct_plain c punct
  have starts : startsPunct (c :: text) = true := by
    simp [startsPunct, plain, punct]
  have literal : Literal.length? (c :: text) = none := by
    have string : Literal.stringLength (c :: text) = none := by
      unfold Literal.stringLength
      split <;> simp_all
    have quoted : Literal.quotedLength (c :: text) = none := by
      unfold Literal.quotedLength
      split <;> simp_all
    rw [Literal.length?, string, quoted, number_length_of_not_digit digit]
  rw [leaf_of_no_literal literal, plainLeaf?, if_neg apostrophe, if_pos starts]

theorem marks_plain : ∀ c ∈ marks, c ∈ punctChars ∧ c ≠ '/' ∧ c ≠ '\'' :=
  each_of_all (by decide)

theorem leaf_of_mark {c : Char} (mark : c ∈ marks) (text : List Char) :
    leaf? (c :: text) = some (.punct c (startsPunct text), 1) := by
  obtain ⟨punct, slash, apostrophe⟩ := marks_plain c mark
  exact leaf_of_punct punct apostrophe (starts_no_comment slash text)

theorem leaf_of_text_literal {name : Literal} (isText : Literal.isText name.text = true) (text : List Char) :
    leaf? (name.text.toList ++ ' ' :: text) = some (.literal name, name.text.toList.length) := by
  have found := Literal.text_length_followed (Literal.opens_text_of_is_text isText) (name.whole isText) text
  unfold leaf?
  split
  · next n again =>
      obtain rfl : n = name.text.toList.length := Option.some.inj (again.symm.trans found)
      have same : Literal.front (name.text.toList ++ ' ' :: text) again = name := by
        ext1
        simp [Literal.front]
      rw [same]
  · next none =>
      rw [found] at none
      cases none

end Accessors.Lexer
