import Accessors.Proofs.WrittenTokens
import Mathlib.Tactic.SplitIfs

/-!
The lexer gives legible lexemes. A literal that is taken off a text is a literal without what followed it, a joint
character has another operator character or an apostrophe behind it, and every delimiter has its partner.
-/

namespace Accessors

namespace Literal

open Text (isIdentStart isIdentContinue)

variable {text back : List Char} {n : Nat}

/-! Numbers. What is no longer than the first of two texts is read from the first alone. -/

theorem pos_of_map_succ {found : Option Nat} (some : found.map (· + 1) = some n) : 0 < n := by
  obtain ⟨m, -, rfl⟩ := Option.map_eq_some_iff.mp some
  exact Nat.succ_pos m

theorem map_succ_mono {long short : Option Nat} {bound : Nat}
    (cut : ∀ m, long = some m → m ≤ bound → short = some m) (found : long.map (· + 1) = some n) (le : n ≤ bound + 1) :
    short.map (· + 1) = some n := by
  obtain ⟨m, same, rfl⟩ := Option.map_eq_some_iff.mp found
  rw [cut m same (Nat.le_of_succ_le_succ le), Option.map_some]

/-- Without a digit there is no exponent. -/
theorem exponent_length_pos {signed : Bool} (found : exponentLength signed false text = some n) : 0 < n := by
  cases text with
  | nil => cases found
  | cons c text =>
      simp only [exponentLength, Bool.false_eq_true, if_false] at found
      split_ifs at found <;> exact pos_of_map_succ found

theorem exponent_length_valued (signed : Bool) (text : List Char) : (exponentLength signed true text).isSome := by
  induction text generalizing signed with
  | nil => rfl
  | cons c text ih =>
      simp only [exponentLength]
      split_ifs <;> simp [ih]

theorem exponent_length_cut {signed valued : Bool} (found : exponentLength signed valued (text ++ back) = some n)
    (short : n ≤ text.length) : exponentLength signed valued text = some n := by
  induction text generalizing signed valued n with
  | nil =>
      obtain rfl : n = 0 := Nat.le_zero.mp short
      cases valued with
      | true => rfl
      | false => exact absurd (exponent_length_pos found) (Nat.lt_irrefl 0)
  | cons c text ih =>
      have inner : ∀ {signed valued}, (exponentLength signed valued (text ++ back)).map (· + 1) = some n →
          (exponentLength signed valued text).map (· + 1) = some n :=
        fun found => map_succ_mono (fun _ => ih) found short
      simp only [List.cons_append, exponentLength] at found ⊢
      split_ifs at found ⊢ <;> first | exact found | exact inner found

theorem exponent_length_none {signed valued : Bool} (none : exponentLength signed valued (text ++ back) = none) :
    exponentLength signed valued text = .none := by
  induction text generalizing signed valued with
  | nil =>
      cases valued with
      | true =>
          have valued := exponent_length_valued signed back
          rw [← List.nil_append back, none] at valued
          cases valued
      | false => rfl
  | cons c text ih =>
      have inner : ∀ {signed valued}, (exponentLength signed valued (text ++ back)).map (· + 1) = .none →
          (exponentLength signed valued text).map (· + 1) = .none :=
        fun none => Option.map_eq_none_iff.mpr (ih (Option.map_eq_none_iff.mp none))
      simp only [List.cons_append, exponentLength] at none ⊢
      split_ifs at none ⊢ <;> first | rfl | exact inner none

/-- Without a point there is a point or an exponent to come. -/
theorem pointed_length_pos (found : pointedLength false text = some n) : 0 < n := by
  cases text with
  | nil => cases found
  | cons c text =>
      simp only [pointedLength, Bool.false_eq_true, if_false] at found
      split_ifs at found
      · exact pos_of_map_succ found
      · cases text with
        | nil =>
            cases found
            exact Nat.one_pos
        | cons d text =>
            simp only at found
            split_ifs at found
            exact pos_of_map_succ found
      · split at found <;> cases found
        exact Nat.succ_pos _

theorem pointed_length_cut {dotted : Bool} (found : pointedLength dotted (text ++ back) = some n)
    (short : n ≤ text.length) : pointedLength dotted text = some n := by
  induction text generalizing dotted n with
  | nil =>
      obtain rfl : n = 0 := Nat.le_zero.mp short
      cases dotted with
      | true => rfl
      | false => exact absurd (pointed_length_pos found) (Nat.lt_irrefl 0)
  | cons c text ih =>
      have inner : ∀ {dotted}, (pointedLength dotted (text ++ back)).map (· + 1) = some n →
          (pointedLength dotted text).map (· + 1) = some n :=
        fun found => map_succ_mono (fun _ => ih) found short
      have exponent : (∀ m, exponentLength false false (text ++ back) = some m → some (m + 1) = some n) →
          exponentLength false false text = exponentLength false false (text ++ back) := by
        intro whole
        cases digits : exponentLength false false (text ++ back) with
        | none => exact exponent_length_none digits
        | some m =>
            cases whole m digits
            exact exponent_length_cut digits (Nat.le_of_succ_le_succ short)
      simp only [List.cons_append, pointedLength] at found ⊢
      split_ifs at found ⊢
      · exact inner found
      · exact found
      · cases text with
        | nil =>
            -- a point at the end is part of the number
            obtain rfl : n = 1 := by
              refine Nat.le_antisymm short ?_
              split at found
              · split_ifs at found
                exact pos_of_map_succ found
              · cases found
                exact Nat.le_refl 1
            rfl
        | cons d text =>
            simp only [List.cons_append] at found ⊢
            split_ifs at found ⊢
            exact inner found
      · rwa [exponent fun m digits => by rwa [digits] at found]
      · rwa [exponent fun m digits => by rwa [digits] at found]
      · exact found

theorem digits_length_pos {base : Nat} (found : digitsLength base false text = some n) : 0 < n := by
  cases text with
  | nil => cases found
  | cons c text =>
      cases hex : hexDigit? c <;> simp only [digitsLength, hex] at found <;> split_ifs at found <;>
        first | exact pos_of_map_succ found | contradiction

theorem digits_length_cut {base : Nat} {seen : Bool} (found : digitsLength base seen (text ++ back) = some n)
    (short : n ≤ text.length) : digitsLength base seen text = some n := by
  induction text generalizing seen n with
  | nil =>
      obtain rfl : n = 0 := Nat.le_zero.mp short
      cases seen with
      | true => rfl
      | false => exact absurd (digits_length_pos found) (Nat.lt_irrefl 0)
  | cons c text ih =>
      have inner : ∀ {seen}, (digitsLength base seen (text ++ back)).map (· + 1) = some n →
          (digitsLength base seen text).map (· + 1) = some n :=
        fun found => map_succ_mono (fun _ => ih) found short
      cases hex : hexDigit? c <;> simp only [List.cons_append, digitsLength, hex] at found ⊢ <;>
        split_ifs at found ⊢ <;> first | exact found | exact inner found

/-- The bases other than ten have a mark of two characters. -/
theorem integer_length_cases (text : List Char) :
    (∃ c rest base, text = '0' :: c :: rest ∧ c ∈ ['x', 'o', 'b']
        ∧ ∀ other, integerLength ('0' :: c :: other) = (digitsLength base false other).map (· + 2))
      ∨ ((∀ c rest, text = '0' :: c :: rest → c ∉ ['x', 'o', 'b'])
        ∧ integerLength text = digitsLength 10 false text) := by
  by_cases mark : ∃ c rest, text = '0' :: c :: rest ∧ c ∈ ['x', 'o', 'b']
  · left
    obtain ⟨c, rest, rfl, listed⟩ := mark
    have base : ∃ base, ∀ other, integerLength ('0' :: c :: other) = (digitsLength base false other).map (· + 2) := by
      simp only [List.mem_cons, List.not_mem_nil, or_false] at listed
      rcases listed with rfl | rfl | rfl
      · exact ⟨16, fun _ => rfl⟩
      · exact ⟨8, fun _ => rfl⟩
      · exact ⟨2, fun _ => rfl⟩
    obtain ⟨base, marked⟩ := base
    exact ⟨c, rest, base, rfl, listed, marked⟩
  · right
    have plain : ∀ c rest, text = '0' :: c :: rest → c ∉ ['x', 'o', 'b'] := fun c rest same listed =>
      mark ⟨c, rest, same, listed⟩
    exact ⟨plain, integer_length_plain plain⟩

theorem integer_length_cut (found : integerLength (text ++ back) = some n) (short : n ≤ text.length) :
    integerLength text = some n := by
  rcases integer_length_cases (text ++ back) with ⟨c, rest, base, shape, listed, marked⟩ | ⟨plain, decimal⟩
  · rw [shape, marked] at found
    obtain ⟨m, digits, rfl⟩ := Option.map_eq_some_iff.mp found
    rcases text with _ | ⟨d, _ | ⟨e, text⟩⟩
    · simp at short
    · simp at short
    · obtain ⟨rfl, rfl, rfl⟩ : d = '0' ∧ e = c ∧ text ++ back = rest := by simpa using shape
      rw [marked, digits_length_cut digits (by simpa using short), Option.map_some]
  · rw [decimal] at found
    rw [integer_length_plain, digits_length_cut found short]
    rintro c rest rfl
    exact plain c (rest ++ back) rfl

theorem ident_length_cut {front : List Char} (whole : identLength (front ++ back) = front.length) :
    identLength front = front.length := by
  have again := plain_ident_length_take (front ++ back)
  rwa [whole, List.take_left] at again

theorem le_suffixed {m : Nat} (found : suffixed text m = some n) : m ≤ n := by
  simp only [suffixed] at found
  split at found
  · split_ifs at found
    exact Option.some.inj found ▸ Nat.le_add_right _ _
  · exact Option.some.inj found ▸ Nat.le_add_right _ _

/-- A number with its suffix, and what follows it. -/
theorem suffixed_cut (found : suffixed (text ++ back) n = some text.length) :
    suffixed text n = some text.length ∧ Stops back := by
  have short := le_suffixed found
  have total : n + identLength ((text ++ back).drop n) = text.length ∧ Stops back := by
    simp only [suffixed] at found
    split at found
    · next c rest behind =>
        split_ifs at found with closed
        have total := Option.some.inj found
        refine ⟨total, fun d first => ?_⟩
        rw [total, List.drop_left] at behind
        rw [behind] at first
        cases first
        simpa using closed
    · next behind =>
        have total := Option.some.inj found
        rw [total, List.drop_left] at behind
        refine ⟨total, fun d first => ?_⟩
        rw [behind] at first
        cases first
  obtain ⟨total, stops⟩ := total
  refine ⟨?_, stops⟩
  rw [List.drop_append_of_le_length short] at total
  have whole : identLength (text.drop n) = (text.drop n).length := by
    have inside : identLength (text.drop n ++ back) = (text.drop n).length := by
      rw [List.length_drop]
      omega
    exact ident_length_cut inside
  have all : n + identLength (text.drop n) = text.length := by
    rw [whole, List.length_drop]
    omega
  simp only [suffixed, all, List.drop_length]

/-- A number with a point or an exponent comes before an integer. -/
theorem number_length_cases {c : Char} (digit : c.isDigit = true) (rest : List Char) :
    (∃ m k, pointedLength false rest = some m ∧ suffixed (c :: rest) (m + 1) = some k ∧ numberLength (c :: rest) = some k)
      ∨ ((∀ m, pointedLength false rest = some m → suffixed (c :: rest) (m + 1) = none)
        ∧ numberLength (c :: rest) = (integerLength (c :: rest)).bind (suffixed (c :: rest))) := by
  cases pointed : pointedLength false rest with
  | none => exact Or.inr ⟨by simp, by simp [numberLength, pointed]⟩
  | some m =>
      cases whole : suffixed (c :: rest) (m + 1) with
      | none => exact Or.inr ⟨by simp [whole], by simp [numberLength, pointed, whole]⟩
      | some k => exact Or.inl ⟨m, k, rfl, whole, by simp [numberLength, digit, pointed, whole]⟩

/-! A number is not taken for more than it is. -/

theorem exponent_length_followed (stops : Stops back) {signed valued : Bool}
    (found : exponentLength signed valued text = some n) : exponentLength signed valued (text ++ back) = some n := by
  induction text generalizing signed valued n with
  | nil =>
      cases valued with
      | false => cases found
      | true =>
          cases back with
          | nil => exact found
          | cons c back =>
              obtain ⟨-, digit, other⟩ := stops_plain (stops c rfl)
              simp only [List.mem_cons, not_or] at other
              simpa [exponentLength, digit, other] using found
  | cons c text ih =>
      have inner : ∀ {signed valued}, (exponentLength signed valued text).map (· + 1) = some n →
          (exponentLength signed valued (text ++ back)).map (· + 1) = some n := by
        intro signed valued found
        obtain ⟨m, digits, rfl⟩ := Option.map_eq_some_iff.mp found
        rw [ih digits, Option.map_some]
      simp only [List.cons_append, exponentLength] at found ⊢
      split_ifs at found ⊢ <;> first | exact found | exact inner found

theorem digit_value {c : Char} (digit : c.isDigit = true) : c ≠ '_' ∧ ∃ d, hexDigit? c = some d ∧ d < 10 := by
  have table : ∀ c ∈ "0123456789".toList, c ≠ '_' ∧ (hexDigit? c).any (· < 10) = true := Lexer.each_of_all (by decide)
  obtain ⟨other, value⟩ := table c (digits_listed digit)
  exact ⟨other, by simpa [Option.any_eq_true] using value⟩

/-- What is read as digits with a point or an exponent is read the same where more follows, unless the digits up to a
point are a number. -/
theorem pointed_length_followed (stops : Stops back) (found : pointedLength false text = some n) :
    pointedLength false (text ++ back) = some n
      ∨ ∃ k < text.length, digitsLength 10 true (text ++ back) = some k ∧ ((text ++ back).drop k).head? = some '.' := by
  induction text generalizing n with
  | nil => cases found
  | cons c text ih =>
      simp only [List.cons_append, pointedLength, Bool.false_eq_true, if_false] at found ⊢
      split_ifs at found ⊢ with digit point letter
      · obtain ⟨m, rest, rfl⟩ := Option.map_eq_some_iff.mp found
        have step : digitsLength 10 true (c :: (text ++ back)) = (digitsLength 10 true (text ++ back)).map (· + 1) := by
          rcases digit with digit | rfl
          · obtain ⟨other, d, value, less⟩ := digit_value digit
            simp [digitsLength, other, value, less]
          · simp [digitsLength]
        rcases ih rest with same | ⟨k, less, digits, first⟩
        · exact Or.inl (by rw [same, Option.map_some])
        · refine Or.inr ⟨k + 1, Nat.succ_lt_succ less, ?_, first⟩
          rw [step, digits, Option.map_some]
      · subst point
        exact Or.inr ⟨0, Nat.succ_pos _, by simp [digitsLength, hexDigit?], rfl⟩
      · left
        cases exponent : exponentLength false false text with
        | none =>
            rw [exponent] at found
            cases found
        | some m =>
            rw [exponent] at found
            rw [exponent_length_followed stops exponent]
            exact found

/-- Digits up to a point are an integer. -/
theorem integer_length_of_point {c : Char} (digit : c.isDigit = true) {k : Nat}
    (decimal : digitsLength 10 true text = some k) (point : (text.drop k).head? = some '.') :
    integerLength (c :: text) = some (k + 1) ∧ suffixed (c :: text) (k + 1) = some (k + 1) := by
  obtain ⟨other, d, value, less⟩ := digit_value digit
  have plain : ∀ d rest, c :: text = '0' :: d :: rest → d ∉ ['x', 'o', 'b'] := by
    intro d rest shape listed
    obtain rfl : text = d :: rest := (List.cons.inj shape).2
    have table : ∀ d ∈ ['x', 'o', 'b'], d ≠ '.' ∧ ∀ rest, digitsLength 10 true (d :: rest) = some 0 := by
      simp [digitsLength, hexDigit?]
    obtain ⟨letter, none⟩ := table d listed
    rw [none rest] at decimal
    cases decimal
    exact letter (by simpa using point)
  constructor
  · rw [integer_length_plain plain]
    simp [digitsLength, other, value, less, decimal]
  · obtain ⟨rest, behind⟩ := List.head?_eq_some_iff.mp point
    have noSuffix : identLength ('.' :: rest) = 0 := by simp [identLength, show isIdentStart '.' = false by decide +kernel]
    simp [suffixed, behind, noSuffix, show isIdentContinue '.' = false by decide +kernel]

/-- A number that was taken off a text is a number by itself. -/
theorem number_length_cut (found : numberLength (text ++ back) = some text.length) :
    numberLength text = some text.length := by
  obtain ⟨c, rest, shape, digit⟩ := digit_of_number found
  cases text with
  | nil =>
      obtain rfl : back = c :: rest := shape
      rcases number_length_cases digit rest with ⟨m, k, -, whole, same⟩ | ⟨-, same⟩
      · rw [List.nil_append, same] at found
        cases found
        exact absurd (le_suffixed whole) (Nat.not_succ_le_zero m)
      · rw [List.nil_append, same] at found
        obtain ⟨m, digits, whole⟩ := Option.bind_eq_some_iff.mp found
        have none : integerLength [] = some m := integer_length_cut digits (le_suffixed whole)
        cases none
  | cons d text =>
      obtain ⟨rfl, -⟩ := List.cons.inj shape
      rw [List.cons_append] at found
      rcases number_length_cases digit (text ++ back) with ⟨m, k, pointed, whole, same⟩ | ⟨unpointed, same⟩
      · obtain rfl : k = (d :: text).length := Option.some.inj (same.symm.trans found)
        have alone : suffixed (d :: text) (m + 1) = some (d :: text).length := (suffixed_cut whole).1
        have cut := pointed_length_cut pointed (Nat.le_of_succ_le_succ (le_suffixed whole))
        rcases number_length_cases digit text with ⟨m', k, pointed', whole', same'⟩ | ⟨unpointed', -⟩
        · obtain rfl : m = m' := Option.some.inj (cut.symm.trans pointed')
          rw [same', ← whole', alone]
        · rw [unpointed' m cut] at alone
          cases alone
      · rw [same] at found
        obtain ⟨m, digits, whole⟩ := Option.bind_eq_some_iff.mp found
        obtain ⟨alone, stops⟩ : suffixed (d :: text) m = some (d :: text).length ∧ Stops back := suffixed_cut whole
        have cut : integerLength (d :: text) = some m := integer_length_cut digits (le_suffixed whole)
        rcases number_length_cases digit text with ⟨m', k, pointed', whole', -⟩ | ⟨-, same'⟩
        · rcases pointed_length_followed stops pointed' with longer | ⟨k, less, decimal, point⟩
          · have short : m' + 1 ≤ (d :: text).length := Nat.succ_le_succ (pointed_length_le pointed')
            have follows := suffixed_stops stops short
            rw [List.cons_append, unpointed m' longer, whole'] at follows
            cases follows
          · have integer := integer_length_of_point digit decimal point
            obtain rfl : k + 1 = m := Option.some.inj (integer.1.symm.trans digits)
            rw [integer.2] at whole
            have size : k + 1 = text.length + 1 := Option.some.inj whole
            omega
        · rw [same', cut, Option.bind_some, alone]

/-- A literal that is taken off a text is a literal as a whole. -/
theorem length_take (found : length? text = some n) : length? (text.take n) = some (text.take n).length := by
  rcases length_cases found with ⟨front, back, rfl, stem, rfl⟩ | number
  · rw [List.take_length_add_append, stem.length, plain_ident_length_take, List.length_append,
      List.length_take_of_le (plain_ident_length_le back)]
  · have size : (text.take n).length = n := List.length_take_of_le (number_length_le number)
    rw [← List.take_append_drop n text] at number
    have alone : numberLength (text.take n) = some (text.take n).length := number_length_cut (number.trans (by rw [size]))
    obtain ⟨c, rest, shape, digit⟩ := digit_of_number alone
    rw [shape] at alone ⊢
    obtain ⟨string, quoted⟩ := only_number digit rest
    rw [length?, string, quoted, alone]

end Literal

namespace Delimiter

theorem opening_of_ofOpening? {c : Char} {d : Delimiter} (found : ofOpening? c = some d) : d.opening = c := by
  unfold ofOpening? at found
  split at found <;> cases found <;> rfl

theorem closing_of_ofClosing? {c : Char} {d : Delimiter} (found : ofClosing? c = some d) : d.closing = c := by
  unfold ofClosing? at found
  split at found <;> cases found <;> rfl

end Delimiter

namespace Lexer

open Lexeme (Follows)

/-- A leaf is a lexeme of its own, and it begins where it was read. A character is joint if an operator goes on. -/
theorem sound_of_leaf {c : Char} {text : List Char} {l : Lexeme} {n : Nat} (found : leaf? (c :: text) = some (l, n)) :
    l.Sound ∧ l.text.head? = some c
      ∧ (l.isJoint = true → n = 1 ∧ startsComment (c :: text) = false ∧ startsPunct text = true) := by
  have front : ∀ {m}, m ≠ 0 → ((c :: text).take m).head? = some c := by
    intro m some
    obtain ⟨k, rfl⟩ := Nat.exists_eq_succ_of_ne_zero some
    rfl
  have spelled := (text_of_leaf found).1
  unfold leaf? at found
  split at found
  · next m literal =>
      obtain ⟨rfl, rfl⟩ := Prod.mk.inj (Option.some.inj found)
      have whole := Literal.length_take literal
      obtain ⟨d, rest, shape, -⟩ := Literal.first_char whole
      refine ⟨by simpa [Lexeme.Sound, Literal.front] using whole, ?_, by simp [Lexeme.isJoint]⟩
      rw [spelled]
      refine front ?_
      rintro rfl
      cases shape
  · simp only [plainLeaf?] at found
    split_ifs at found with quote opens closed punct string opens
    · obtain ⟨rfl, rfl⟩ := Prod.mk.inj (Option.some.inj found)
      exact ⟨trivial, by rw [spelled]; rfl, by simp [Lexeme.isJoint]⟩
    · obtain ⟨rfl, rfl⟩ := Prod.mk.inj (Option.some.inj found)
      simp only [startsPunct, Bool.and_eq_true, Bool.not_eq_true', List.contains_iff_mem] at punct
      exact ⟨⟨punct.1, quote⟩, rfl, fun joint => ⟨rfl, punct.2, joint⟩⟩
    · obtain ⟨rfl, rfl⟩ := Prod.mk.inj (Option.some.inj found)
      exact ⟨trivial, by rw [spelled]; exact front opens, by simp [Lexeme.isJoint]⟩

/-- What the lexer makes of a text while some delimiters are open: where an operator goes on, the first lexeme goes on
with it. -/
structure Lexed (text : List Char) (opened : List Delimiter) (lexemes : List Lexeme) : Prop where
  sound : ∀ l ∈ lexemes, l.Sound
  joints : lexemes.IsChain Follows
  nested : nested opened lexemes = true
  first : startsPunct text = true → ∃ l rest, lexemes = l :: rest ∧ l.text.head? = text.head?

/-- A character that begins a longer operator, with what was read behind it. -/
theorem follows_of_first {c : Char} {text : List Char} {l : Lexeme} (plain : startsComment (c :: text) = false)
    (starts : startsPunct text = true) (sound : l.Sound) (first : l.text.head? = text.head?) :
    startsPunct l.text = true ∧ startsComment (c :: l.text) = false := by
  refine ⟨?_, (starts_comment_head first).trans plain⟩
  cases text with
  | nil => cases starts
  | cons d text =>
      have punct : d ∈ punctChars := by
        simp only [startsPunct, Bool.and_eq_true, List.contains_iff_mem] at starts
        exact starts.1
      have noComment : startsComment l.text = false := by
        rcases Lexeme.first_cases sound first with opens | opener | ⟨single, -⟩
        · exact absurd (ident_start_plain opens).2.1 (by simpa using punct)
        · have table : ∀ c ∈ Literal.openers, c ≠ '/' := each_of_all (by decide)
          obtain ⟨more, shape⟩ := List.head?_eq_some_iff.mp first
          rw [shape]
          exact starts_no_comment (table d opener) more
        · simp [single, startsComment]
      obtain ⟨more, shape⟩ := List.head?_eq_some_iff.mp first
      rw [shape] at noComment ⊢
      simp [startsPunct, noComment, punct]

/-- The lexer reads a lexeme and goes on. -/
theorem Lexed.cons {text rest : List Char} {opened after : List Delimiter} {l : Lexeme} {lexemes : List Lexeme}
    (lexed : Lexed rest after lexemes) (sound : l.Sound) (begins : startsPunct text = true → l.text.head? = text.head?)
    (partners : Lexer.nested opened (l :: lexemes) = Lexer.nested after lexemes)
    (joint : l.isJoint = true → ∃ c, l.text = [c] ∧ startsComment (c :: rest) = false ∧ startsPunct rest = true) :
    Lexed text opened (l :: lexemes) where
  sound := List.forall_mem_cons.mpr ⟨sound, lexed.sound⟩
  joints := by
    refine List.isChain_cons.mpr ⟨fun next member isJoint => ?_, lexed.joints⟩
    obtain ⟨c, single, plain, starts⟩ := joint isJoint
    obtain ⟨l', more, rfl, first⟩ := lexed.first starts
    obtain rfl : l' = next := by simpa using member
    rw [single]
    exact follows_of_first plain starts (lexed.sound _ List.mem_cons_self) first
  nested := partners.trans lexed.nested
  first := fun starts => ⟨l, lexemes, rfl, begins starts⟩

/-- The attribute of a documentation comment goes before what follows the comment. -/
theorem Lexed.doc {text rest : List Char} {opened : List Delimiter} {lexemes : List Lexeme}
    (lexed : Lexed rest opened lexemes) (doc : DocComment) (noOperator : startsPunct text = false) :
    Lexed text opened (doc.lexemes ++ lexemes) := by
  have literal : (Lexeme.literal doc.literal).Sound := doc.literal.whole (by simp [Literal.isText, DocComment.literal])
  have marks : '#' ∈ punctChars ∧ '!' ∈ punctChars ∧ '=' ∈ punctChars := by decide
  have each : ∀ l ∈ doc.lexemes, l.Sound ∧ l.isJoint = false := by
    cases inner : doc.inner <;>
      simp [DocComment.lexemes, inner, Lexeme.isJoint, literal] <;> simp [Lexeme.Sound, marks]
  refine ⟨?_, ?_, ?_, by simp [noOperator]⟩
  · intro l member
    rcases List.mem_append.mp member with inDoc | later
    · exact (each l inDoc).1
    · exact lexed.sound l later
  · have alone : ∀ l ∈ doc.lexemes, ∀ next, Follows l next := by
      intro l member next joint
      rw [(each l member).2] at joint
      cases joint
    refine List.isChain_append.mpr ⟨?_, lexed.joints, fun l last next _ => alone l (List.mem_of_getLast? last) next⟩
    exact (List.pairwise_of_forall_mem_list fun l member next _ => alone l member next).isChain
  · rw [← lexed.nested]
    cases inner : doc.inner <;> simp [DocComment.lexemes, inner, Lexer.nested]

/-- Where an operator goes on, nothing is passed over. -/
theorem no_gap_of_punct {text : List Char} (starts : startsPunct text = true) (most : Nat) :
    gapLength most text = 0 ∧ docComment? text = none := by
  cases text with
  | nil => cases starts
  | cons c text =>
      simp only [startsPunct, Bool.and_eq_true, Bool.not_eq_true', List.contains_iff_mem] at starts
      obtain ⟨punct, plain⟩ := starts
      obtain ⟨-, -, solid, -⟩ := punct_plain c punct
      have noComment : commentLength (c :: text) = 0 := by
        unfold commentLength
        split <;> simp_all [startsComment]
      have noDoc : docComment? (c :: text) = none := by
        unfold docComment?
        split <;> simp_all [startsComment]
      cases most with
      | zero => exact ⟨rfl, noDoc⟩
      | succ most => exact ⟨by simp [gapLength, solid, noComment], noDoc⟩

theorem nested_leaf {l : Lexeme} (single : ∀ d, l ≠ .opening d ∧ l ≠ .closing d) (opened : List Delimiter)
    (lexemes : List Lexeme) : Lexer.nested opened (l :: lexemes) = Lexer.nested opened lexemes := by
  cases l with
  | opening d => exact absurd rfl (single d).1
  | closing d => exact absurd rfl (single d).2
  | _ => rfl

/-- What the lexer reads is what it may make of the text. -/
theorem lexed_of_tokens_from {most : Nat} {text : List Char} {pos : Pos} {opened : List (Delimiter × Pos)}
    {done tokens : List Token} (found : tokensFrom most text pos opened done = .ok tokens) :
    ∃ more, tokens = done.reverse ++ more ∧ Lexed text (opened.map Prod.fst) (more.map Token.lexeme) := by
  induction most generalizing text pos opened done with
  | zero => cases found
  | succ most ih =>
      simp only [tokensFrom] at found
      -- a gap is passed over only where no operator goes on
      suffices behind : ∃ more, tokens = done.reverse ++ more
          ∧ Lexed (text.drop (gapLength (most + 1) text)) (opened.map Prod.fst) (more.map Token.lexeme) by
        obtain ⟨more, same, lexed⟩ := behind
        refine ⟨more, same, lexed.sound, lexed.joints, lexed.nested, fun starts => ?_⟩
        have first := lexed.first
        rw [(no_gap_of_punct starts _).1, List.drop_zero] at first
        exact first starts
      generalize pos.after (text.take (gapLength (most + 1) text)) = place at found
      generalize text.drop (gapLength (most + 1) text) = text at found ⊢
      split at found
      · next doc documented =>
          have noOperator : startsPunct text = false := by
            rw [Bool.eq_false_iff]
            intro starts
            rw [(no_gap_of_punct starts 0).2] at documented
            cases documented
          obtain ⟨more, rfl, lexed⟩ := ih found
          refine ⟨doc.lexemes.map (⟨·, place⟩) ++ more, by simp, ?_⟩
          have whole := lexed.doc doc noOperator
          simpa [Function.comp_def] using whole
      · split at found
        · split at found
          · cases found
            exact ⟨[], by simp, by simp, .nil, rfl, (absurd · Bool.false_ne_true)⟩
          · cases found
        · split at found
          · next d opening =>
              obtain ⟨more, rfl, lexed⟩ := ih found
              refine ⟨⟨.opening d, place⟩ :: more, by simp, lexed.cons trivial (fun _ => ?_) rfl (absurd · Bool.false_ne_true)⟩
              rw [← Delimiter.opening_of_ofOpening? opening]
              rfl
          · next d _ closing =>
              split at found
              · next e _ opened =>
                  split_ifs at found with same
                  obtain ⟨more, rfl, lexed⟩ := ih found
                  refine ⟨⟨.closing d, place⟩ :: more, by simp, lexed.cons trivial (fun _ => ?_) ?_ (absurd · Bool.false_ne_true)⟩
                  · rw [← Delimiter.closing_of_ofClosing? closing]
                    rfl
                  · simp [Lexer.nested, same]
              · cases found
          · split at found
            · cases found
            · next l n leaf =>
                obtain ⟨more, rfl, lexed⟩ := ih found
                obtain ⟨spelled, single⟩ := text_of_leaf leaf
                obtain ⟨sound, first, joint⟩ := sound_of_leaf leaf
                refine ⟨⟨l, place⟩ :: more, by simp, lexed.cons sound (fun _ => first) ?_ fun isJoint => ?_⟩
                · exact nested_leaf single _ _
                · obtain ⟨rfl, plain, starts⟩ := joint isJoint
                  exact ⟨_, spelled, plain, starts⟩

/-- The tokens of a text are legible. -/
theorem legible_of_tokens {text : String} {tokens : List Token} (lexed : Lexer.tokens text = .ok tokens) :
    Lexeme.Legible (tokens.map Token.lexeme) := by
  have read : ∃ most text pos, tokensFrom most text pos [] [] = .ok tokens := by
    unfold Lexer.tokens at lexed
    split at lexed
    · split_ifs at lexed
      · exact ⟨_, _, _, lexed⟩
      · exact ⟨_, _, _, lexed⟩
    · cases lexed
      exact ⟨1, [], Pos.start, rfl⟩
  obtain ⟨most, text, pos, read⟩ := read
  obtain ⟨more, rfl, lexed⟩ := lexed_of_tokens_from read
  exact ⟨lexed.sound, lexed.joints, lexed.nested⟩

end Lexer

namespace Lexeme

/-- A lexeme as it is kept: an operator may be kept as several, so that a character is no longer joint. -/
def KeptAs (l kept : Lexeme) : Prop := kept = l ∨ kept = l.met false

variable {lexemes kept : List Lexeme}

theorem text_met (joint : Bool) (l : Lexeme) : (l.met joint).text = l.text := by
  cases l <;> rfl

theorem sound_met {joint : Bool} {l : Lexeme} (sound : l.Sound) : (l.met joint).Sound := by
  cases l <;> exact sound

theorem KeptAs.text {l kept : Lexeme} (same : l.KeptAs kept) : kept.text = l.text := by
  rcases same with rfl | rfl
  · rfl
  · exact text_met false l

theorem KeptAs.sound {l kept : Lexeme} (same : l.KeptAs kept) (sound : l.Sound) : kept.Sound := by
  rcases same with rfl | rfl
  · exact sound
  · exact sound_met sound

theorem KeptAs.follows {l kept next next' : Lexeme} (same : l.KeptAs kept) (same' : next.KeptAs next')
    (follows : l.Follows next) : kept.Follows next' := by
  intro joint
  rw [same.text, same'.text]
  rcases same with rfl | rfl
  · exact follows joint
  · cases l <;> cases joint

theorem nested_of_kept (same : List.Forall₂ KeptAs lexemes kept) (opened : List Delimiter) :
    Lexer.nested opened kept = Lexer.nested opened lexemes := by
  induction same generalizing opened with
  | nil => rfl
  | cons here rest ih =>
      rename_i l m lexemes kept
      have head : Lexer.nested opened (m :: kept) = Lexer.nested opened (l :: kept) := by
        rcases here with rfl | rfl
        · rfl
        · exact nested_met false l opened kept
      rw [head]
      cases l with
      | closing d =>
          cases opened with
          | nil => rfl
          | cons e opened => simp only [Lexer.nested, ih]
      | _ => exact ih _

/-- Lexemes stay legible where operators are kept as several. -/
theorem Legible.split (legible : Legible lexemes) (same : List.Forall₂ KeptAs lexemes kept) : Legible kept where
  sound := by
    have sound := legible.sound
    clear legible
    induction same with
    | nil => exact sound
    | cons here rest ih =>
        obtain ⟨first, others⟩ := List.forall_mem_cons.mp sound
        exact List.forall_mem_cons.mpr ⟨here.sound first, ih others⟩
  joints := by
    have joints := legible.joints
    clear legible
    induction same with
    | nil => exact .nil
    | cons here rest ih =>
        rw [List.isChain_cons] at joints ⊢
        refine ⟨fun next member => ?_, ih joints.2⟩
        cases rest with
        | nil => cases member
        | cons there rest =>
            obtain rfl : _ = next := by simpa using member
            exact here.follows there (joints.1 _ rfl)
  nested := (nested_of_kept same []).trans legible.nested

/-- What stands in legible lexemes is legible if its delimiters have their partners. -/
theorem Legible.stretch {front back : List Lexeme} (legible : Legible (front ++ (lexemes ++ back)))
    (partners : Lexer.nested [] lexemes = true) : Legible lexemes where
  sound := fun l member => legible.sound l (List.mem_append_right front (List.mem_append_left back member))
  joints := (List.isChain_append.mp (List.isChain_append.mp legible.joints).2.1).1
  nested := partners

end Lexeme

/-- What stands in a text between delimiters that have their partners is legible, also where operators in it are kept as
several. -/
theorem Lexer.legible_of_part {text : String} {tokens : List Token} (lexed : Lexer.tokens text = .ok tokens)
    {front part back kept : List Lexeme} (stands : tokens.map Token.lexeme = front ++ (part ++ back))
    (partners : Lexer.nested [] part = true) (same : List.Forall₂ Lexeme.KeptAs part kept) : Lexeme.Legible kept := by
  have legible := legible_of_tokens lexed
  rw [stands] at legible
  exact (legible.stretch partners).split same

end Accessors
