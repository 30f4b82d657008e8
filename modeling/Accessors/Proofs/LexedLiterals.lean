import Accessors.Proofs.ClosedSpaces
import Accessors.Proofs.LexedLeaves

/-!
Whole literals. A literal of any kind begins and ends with characters of its own, which stand in no pattern of token
text, and it is taken in full off a text that goes on behind it with such a character.
-/

namespace Accessors.Literal

open Lexer (each_of_all)
open Spacing (seams)
open Text (isIdentStart isIdentContinue)

/-- A text that ends at once, or begins with a line break or a character of the patterns. -/
def Ends (text : List Char) : Prop := ∀ c, text.head? = some c → c ∈ '\n' :: seams

theorem ends_nil : Ends [] := by
  intro c first
  cases first

theorem ends_cons {c : Char} (seam : c ∈ '\n' :: seams) (text : List Char) : Ends (c :: text) := by
  intro d first
  obtain rfl : c = d := by simpa using first
  exact seam

theorem seams_end : ∀ c ∈ '\n' :: seams, isIdentContinue c = false ∧ isIdentStart c = false ∧ c.isDigit = false
    ∧ hexDigit? c = none ∧ c ∉ ['_', '.', 'e', 'E', '+', '-'] :=
  each_of_all (by decide +kernel)

/-- A text that does not go on with a character of a word. -/
def Stops (text : List Char) : Prop := ∀ c, text.head? = some c → isIdentContinue c = false

theorem Ends.stops {text : List Char} (ends : Ends text) : Stops text :=
  fun c first => (seams_end c (ends c first)).1

theorem digits_listed {c : Char} (digit : c.isDigit = true) : c ∈ "0123456789".toList := by
  have bounds : 48 ≤ c.toNat ∧ c.toNat ≤ 57 := by
    simpa [Char.isDigit, UInt32.le_iff_toNat_le] using digit
  have table : ∀ n ∈ List.range' 48 10, Char.ofNat n ∈ "0123456789".toList := by decide
  have listed := table c.toNat (List.mem_range'_1.mpr ⟨bounds.1, by omega⟩)
  rwa [Char.ofNat_toNat] at listed

theorem stops_plain {c : Char} (closed : isIdentContinue c = false) :
    isIdentStart c = false ∧ c.isDigit = false ∧ c ∉ ['_', 'e', 'E'] := by
  refine ⟨?_, ?_, ?_⟩
  · cases opens : isIdentStart c with
    | false => rfl
    | true => simp [Text.ident_continue_of_start opens] at closed
  · cases digit : c.isDigit with
    | false => rfl
    | true =>
        have table : ∀ c ∈ "0123456789".toList, isIdentContinue c = true := each_of_all (by decide +kernel)
        simp [table c (digits_listed digit)] at closed
  · intro listed
    have table : ∀ c ∈ ['_', 'e', 'E'], isIdentContinue c = true := each_of_all (by decide +kernel)
    simp [table c listed] at closed

/-! Numbers. What ends a literal is to a number as the end of the text. -/

variable {rest back : List Char}

theorem exponent_length_ends (ends : Ends rest) (signed valued : Bool) (text : List Char) :
    exponentLength signed valued (text ++ rest) = exponentLength signed valued text := by
  induction text generalizing signed valued with
  | nil =>
      cases rest with
      | nil => rfl
      | cons c rest =>
          obtain ⟨-, -, digit, -, other⟩ := seams_end c (ends c rfl)
          simp only [List.mem_cons, not_or] at other
          simp [exponentLength, other, digit]
  | cons c text ih => simp only [List.cons_append, exponentLength, ih]

theorem pointed_length_ends (ends : Ends rest) (dotted : Bool) (text : List Char) :
    pointedLength dotted (text ++ rest) = pointedLength dotted text := by
  induction text generalizing dotted with
  | nil =>
      cases rest with
      | nil => rfl
      | cons c rest =>
          obtain ⟨-, -, digit, -, other⟩ := seams_end c (ends c rfl)
          simp only [List.mem_cons, not_or] at other
          simp [pointedLength, other, digit]
  | cons c text ih =>
      simp only [List.cons_append, pointedLength, ih, exponent_length_ends ends]
      -- the texts differ only where a point is the last character
      cases text with
      | cons d text => rfl
      | nil =>
          cases rest with
          | nil => rfl
          | cons d rest =>
              obtain ⟨-, start, -, -, other⟩ := seams_end d (ends d rfl)
              simp only [List.mem_cons, not_or] at other
              simp [other, start, pointedLength]

theorem digits_length_ends (ends : Ends rest) (base : Nat) (seen : Bool) (text : List Char) :
    digitsLength base seen (text ++ rest) = digitsLength base seen text := by
  induction text generalizing seen with
  | nil =>
      cases rest with
      | nil => rfl
      | cons c rest =>
          obtain ⟨-, -, -, hex, other⟩ := seams_end c (ends c rfl)
          simp only [List.mem_cons, not_or] at other
          simp [digitsLength, other, hex]
  | cons c text ih => simp only [List.cons_append, digitsLength, ih]

theorem ident_length_stops (stops : Stops rest) (text : List Char) : identLength (text ++ rest) = identLength text := by
  cases text with
  | nil =>
      cases rest with
      | nil => rfl
      | cons c rest => simp [identLength, (stops_plain (stops c rfl)).1]
  | cons c text =>
      have taken : (text ++ rest).takeWhile isIdentContinue = text.takeWhile isIdentContinue := by
        cases rest with
        | nil => rw [List.append_nil]
        | cons d rest =>
            have closed := stops d rfl
            rw [List.takeWhile_append]
            split
            · next all =>
                have whole := (List.takeWhile_prefix isIdentContinue).eq_of_length all
                simp [closed, whole]
            · rfl
      rw [List.cons_append, identLength, identLength, taken]

/-! A number is no longer than the text. -/

theorem le_of_map_succ {found : Option Nat} {n bound : Nat} (some : found.map (· + 1) = some n)
    (inner : ∀ m, found = Option.some m → m ≤ bound) : n ≤ bound + 1 := by
  obtain ⟨m, same, rfl⟩ := Option.map_eq_some_iff.mp some
  exact Nat.succ_le_succ (inner m same)

theorem exponent_length_le {signed valued : Bool} {text : List Char} {n : Nat}
    (found : exponentLength signed valued text = some n) : n ≤ text.length := by
  induction text generalizing signed valued n with
  | nil =>
      simp only [exponentLength] at found
      split at found <;> cases found
      exact Nat.zero_le _
  | cons c text ih =>
      simp only [exponentLength] at found
      split at found
      · split at found
        · cases found
          exact Nat.zero_le _
        · split at found
          · cases found
          · exact le_of_map_succ found fun _ inner => ih inner
      · split at found
        · exact le_of_map_succ found fun _ inner => ih inner
        · split at found
          · exact le_of_map_succ found fun _ inner => ih inner
          · split at found <;> cases found
            exact Nat.zero_le _

theorem pointed_length_le {dotted : Bool} {text : List Char} {n : Nat} (found : pointedLength dotted text = some n) :
    n ≤ text.length := by
  induction text generalizing dotted n with
  | nil =>
      simp only [pointedLength] at found
      split at found <;> cases found
      exact Nat.zero_le _
  | cons c text ih =>
      have stops : ∀ {dotted : Bool}, (if dotted then some 0 else none) = some n → n ≤ text.length + 1 := by
        intro dotted found
        split at found <;> cases found
        exact Nat.zero_le _
      simp only [pointedLength] at found
      split at found
      · exact le_of_map_succ found fun _ inner => ih inner
      · split at found
        · split at found
          · cases found
            exact Nat.zero_le _
          · split at found
            · split at found
              · cases found
              · exact le_of_map_succ found fun _ inner => ih inner
            · cases found
              simp
        · split at found
          · split at found
            · next m exponent =>
                cases found
                exact Nat.succ_le_succ (exponent_length_le exponent)
            · exact stops found
          · exact stops found

theorem digits_length_le {base : Nat} {seen : Bool} {text : List Char} {n : Nat}
    (found : digitsLength base seen text = some n) : n ≤ text.length := by
  induction text generalizing seen n with
  | nil =>
      simp only [digitsLength] at found
      split at found <;> cases found
      exact Nat.zero_le _
  | cons c text ih =>
      have stops : ∀ {seen : Bool}, (if seen then some 0 else none) = some n → n ≤ text.length + 1 := by
        intro seen found
        split at found <;> cases found
        exact Nat.zero_le _
      simp only [digitsLength] at found
      split at found
      · split at found
        · cases found
        · exact le_of_map_succ found fun _ inner => ih inner
      · split at found
        · split at found
          · exact le_of_map_succ found fun _ inner => ih inner
          · split at found
            · cases found
            · exact stops found
        · exact stops found

theorem integer_length_le {text : List Char} {n : Nat} (found : integerLength text = some n) : n ≤ text.length := by
  have marked : ∀ {base : Nat} {rest : List Char}, (digitsLength base false rest).map (· + 2) = some n →
      n ≤ rest.length + 2 := by
    intro base rest found
    obtain ⟨m, inner, rfl⟩ := Option.map_eq_some_iff.mp found
    exact Nat.add_le_add_right (digits_length_le inner) 2
  unfold integerLength at found
  split at found
  · exact marked found
  · exact marked found
  · exact marked found
  · exact digits_length_le found

/-- An integer without a base mark is decimal. -/
theorem integer_length_plain {text : List Char} (plain : ∀ c rest, text = '0' :: c :: rest → c ∉ ['x', 'o', 'b']) :
    integerLength text = digitsLength 10 false text := by
  unfold integerLength
  split
  · next rest => exact absurd (by decide) (plain 'x' rest rfl)
  · next rest => exact absurd (by decide) (plain 'o' rest rfl)
  · next rest => exact absurd (by decide) (plain 'b' rest rfl)
  · rfl

theorem integer_length_ends (ends : Ends rest) (text : List Char) : integerLength (text ++ rest) = integerLength text := by
  have letters : ∀ c ∈ '\n' :: seams, c ≠ '0' ∧ c ∉ ['x', 'o', 'b'] := each_of_all (by decide)
  by_cases mark : ∃ c more, text = '0' :: c :: more ∧ c ∈ ['x', 'o', 'b']
  · obtain ⟨c, more, rfl, listed⟩ := mark
    simp only [List.mem_cons, List.not_mem_nil, or_false] at listed
    rcases listed with rfl | rfl | rfl <;> simp [integerLength, digits_length_ends ends]
  · rw [integer_length_plain, integer_length_plain, digits_length_ends ends]
    · exact fun c more shape listed => mark ⟨c, more, shape, listed⟩
    · intro c more shape listed
      rcases text with _ | ⟨d, _ | ⟨e, text⟩⟩
      · exact (letters '0' (ends '0' (by rw [← List.nil_append rest, shape]; rfl))).1 rfl
      · have behind : rest = c :: more := (List.cons.inj shape).2
        exact (letters c (ends c (by rw [behind]; rfl))).2 listed
      · simp only [List.cons_append, List.cons.injEq] at shape
        obtain ⟨rfl, rfl, -⟩ := shape
        exact mark ⟨e, text, rfl, listed⟩

theorem suffixed_stops (stops : Stops rest) {text : List Char} {n : Nat} (short : n ≤ text.length) :
    suffixed (text ++ rest) n = suffixed text n := by
  have behind : identLength ((text ++ rest).drop n) = identLength (text.drop n) := by
    rw [List.drop_append_of_le_length short, ident_length_stops stops]
  have bound : n + identLength (text.drop n) ≤ text.length := by
    have inner := plain_ident_length_le (text.drop n)
    rw [List.length_drop] at inner
    omega
  simp only [suffixed, behind]
  rw [List.drop_append_of_le_length bound]
  cases text.drop (n + identLength (text.drop n)) with
  | cons c more => rfl
  | nil =>
      cases rest with
      | nil => rfl
      | cons c rest => simp [stops c rfl]

/-- What ends a number is to it as the end of the text. -/
theorem number_length_ends (ends : Ends rest) (text : List Char) : numberLength (text ++ rest) = numberLength text := by
  have integer : (integerLength (text ++ rest)).bind (suffixed (text ++ rest))
      = (integerLength text).bind (suffixed text) := by
    rw [integer_length_ends ends]
    cases found : integerLength text with
    | none => rfl
    | some n => exact suffixed_stops ends.stops (integer_length_le found)
  cases text with
  | nil =>
      cases rest with
      | nil => rfl
      | cons c rest =>
          rw [List.nil_append] at integer ⊢
          simp only [numberLength, (seams_end c (ends c rfl)).2.2.1, integer]
          rfl
  | cons c text =>
      have pointed : ((pointedLength false (text ++ rest)).map (· + 1)).bind (suffixed (c :: text ++ rest))
          = ((pointedLength false text).map (· + 1)).bind (suffixed (c :: text)) := by
        rw [pointed_length_ends ends]
        cases found : pointedLength false text with
        | none => rfl
        | some n => exact suffixed_stops ends.stops (Nat.succ_le_succ (pointed_length_le found))
      rw [List.cons_append] at integer pointed ⊢
      simp only [numberLength, pointed, integer]

theorem suffixed_le {text : List Char} {n m : Nat} (short : n ≤ text.length) (found : suffixed text n = some m) :
    m ≤ text.length := by
  have inner := plain_ident_length_le (text.drop n)
  rw [List.length_drop] at inner
  simp only [suffixed] at found
  split at found
  · split at found <;> cases found
    omega
  · cases found
    omega

theorem number_length_le {text : List Char} {n : Nat} (found : numberLength text = some n) : n ≤ text.length := by
  have integer : ∀ m, (integerLength text).bind (suffixed text) = some m → m ≤ text.length := by
    intro m found
    obtain ⟨k, digits, whole⟩ := Option.bind_eq_some_iff.mp found
    exact suffixed_le (integer_length_le digits) whole
  cases text with
  | nil => exact integer n found
  | cons c text =>
      simp only [numberLength] at found
      split at found
      · next m pointed =>
          cases found
          split at pointed
          · obtain ⟨k, point, whole⟩ := Option.bind_eq_some_iff.mp pointed
            obtain ⟨j, inner, rfl⟩ := Option.map_eq_some_iff.mp point
            exact suffixed_le (Nat.succ_le_succ (pointed_length_le inner)) whole
          · cases pointed
      · exact integer n found

/-- A number does not end with a character of the patterns. -/
theorem number_last {text : List Char} (whole : numberLength text = some text.length) :
    ∀ c, text.getLast? = some c → c ∉ seams := by
  intro c last seam
  obtain ⟨front, rfl⟩ := List.getLast?_eq_some_iff.mp last
  rw [number_length_ends (ends_cons (List.mem_cons_of_mem _ seam) [])] at whole
  have bound := number_length_le whole
  rw [List.length_append, List.length_singleton] at bound
  omega

/-! Strings. -/

theorem body_last {kind : Cooked} {passing n : Nat} {text : List Char} (found : kind.bodyLength passing text = some n) :
    (text.take n).getLast? = some '"' := by
  fun_induction Cooked.bodyLength kind passing text generalizing n with
  | case1 | case5 | case7 | case9 => cases found
  | case2 passing c rest ih | case8 c rest quote returned escaped plain ih =>
      obtain ⟨m, inner, rfl⟩ := Option.map_eq_some_iff.mp found
      rw [List.take_succ_cons, List.getLast?_cons, ih inner]
      rfl
  | case3 rest =>
      cases found
      rfl
  | case4 rest ih =>
      obtain ⟨m, inner, rfl⟩ := Option.map_eq_some_iff.mp found
      rw [List.take_succ_cons, List.getLast?_cons, ih inner]
      rfl
  | case6 rest skip passed skips =>
      rename_i ih
      obtain ⟨m, inner, rfl⟩ := Option.map_eq_some_iff.mp found
      rw [List.take_succ_cons, List.getLast?_cons, ih inner]
      rfl

theorem raw_body_last {plain : Char → Bool} {hashes n : Nat} {text : List Char}
    (found : rawBodyLength plain hashes text = some n) :
    ∃ c, (text.take n).getLast? = some c ∧ c ∈ ['"', '#'] := by
  fun_induction rawBodyLength plain hashes text generalizing n with
  | case1 | case5 | case7 => cases found
  | case2 rest ends =>
      cases found
      obtain ⟨more, rfl⟩ := List.isPrefixOf_iff_prefix.mp ends
      rw [Nat.add_comm, List.take_succ_cons]
      cases hashes with
      | zero => exact ⟨'"', by simp, by simp⟩
      | succ k => exact ⟨'#', by simp [List.getLast?_cons, List.getLast?_replicate], by simp⟩
  | case3 rest goes ih | case6 c rest quote feed returned plain ih =>
      obtain ⟨m, inner, rfl⟩ := Option.map_eq_some_iff.mp found
      obtain ⟨c, last, listed⟩ := ih inner
      exact ⟨c, by rw [List.take_succ_cons, List.getLast?_cons, last]; rfl, listed⟩
  | case4 rest ih =>
      obtain ⟨m, inner, rfl⟩ := Option.map_eq_some_iff.mp found
      obtain ⟨c, last, listed⟩ := ih inner
      exact ⟨c, by rw [List.take_succ_cons, List.take_succ_cons, List.getLast?_cons, List.getLast?_cons, last]; rfl, listed⟩

theorem ReadsBody.last {read : List Char → Option Nat} (reads : ReadsBody read) {text : List Char}
    (whole : read text = some text.length) : ∃ c, text.getLast? = some c ∧ c ∈ ['"', '#'] := by
  rcases reads with ⟨kind, -, rfl⟩ | ⟨plain, rfl⟩
  · have last := body_last whole
    rw [List.take_length] at last
    exact ⟨'"', last, by decide⟩
  · obtain ⟨hashes, rest, rfl⟩ := raw_length_shape whole
    rw [raw_length_eq] at whole
    split at whole
    · obtain ⟨m, inner, size⟩ := Option.map_eq_some_iff.mp whole
      obtain rfl : m = rest.length := by
        simp only [List.length_append, List.length_replicate, List.length_cons] at size
        omega
      obtain ⟨c, last, listed⟩ := raw_body_last inner
      rw [List.take_length] at last
      exact ⟨c, by rw [List.getLast?_append, List.getLast?_cons, last]; rfl, listed⟩
    · cases whole

theorem string_last {text : List Char} (whole : stringLength text = some text.length) :
    ∃ c, text.getLast? = some c ∧ c ∈ ['"', '#'] := by
  obtain ⟨opening, body, read, m, -, reads, rfl, inner, size, -⟩ := string_length_cases whole
  obtain rfl : m = body.length := by
    rw [List.length_append] at size
    omega
  obtain ⟨c, last, listed⟩ := reads.last inner
  exact ⟨c, by rw [List.getLast?_append, last]; rfl, listed⟩

/-! Bytes and characters. -/

/-- A quoted byte or character up to its closing apostrophe. -/
theorem quoted_shape {kind : Cooked} {text : List Char} {n : Nat} (found : kind.quotedLength text = some n) :
    ∃ inside rest, text = inside ++ '\'' :: rest ∧ n = inside.length + 1 ∧ inside ≠ []
      ∧ (kind.Strict → ∀ other, kind.quotedLength (inside ++ '\'' :: other) = some n) := by
  cases text with
  | nil => cases found
  | cons c text =>
      by_cases escape : c = '\\'
      · subst escape
        simp only [Cooked.quotedLength] at found
        cases escaped : kind.escapeLength text with
        | none => rw [escaped] at found; cases found
        | some k =>
            rw [escaped] at found
            simp only [Option.map_some, List.drop_succ_cons] at found
            split at found
            · next rest quote =>
                cases found
                have split := List.take_append_drop k text
                rw [quote] at split
                have bound : k < text.length := by
                  have size := congrArg List.length quote
                  rw [List.length_drop, List.length_cons] at size
                  omega
                have size : (text.take k).length = k := List.length_take_of_le (Nat.le_of_lt bound)
                refine ⟨'\\' :: text.take k, rest, by rw [List.cons_append, split], by simp [size], by simp, ?_⟩
                intro strict other
                rw [← split] at escaped
                have again : kind.escapeLength (text.take k ++ '\'' :: other) = some k :=
                  escape_length_append strict escaped (by rw [size])
                have behind : (text.take k ++ '\'' :: other).drop k = '\'' :: other := by
                  rw [List.drop_append_of_le_length (by rw [size]), List.drop_of_length_le (by rw [size]), List.nil_append]
                simp [Cooked.quotedLength, again, behind]
            · cases found
      · have plain : ∀ text, kind.quotedLength (c :: text) = if text.head? = some '\'' then some 2 else none := by
          intro text
          unfold Cooked.quotedLength
          split
          · next none => cases none
          · next same => exact absurd (List.cons.inj same).1 escape
          · next same =>
              cases same
              cases text with
              | nil => rfl
              | cons d text =>
                  by_cases quote : d = '\''
                  · subst quote
                    rfl
                  · simp [quote]
        rw [plain] at found
        split at found
        · next quote =>
            cases found
            obtain ⟨rest, rfl⟩ := List.head?_eq_some_iff.mp quote
            exact ⟨[c], rest, rfl, rfl, by simp, fun _ other => plain _⟩
        · cases found

/-- A quoted literal is told by its opening and what stands up to its closing apostrophe. -/
theorem quoted_length_cases {text : List Char} {n : Nat} (found : quotedLength text = some n) :
    ∃ opening inside rest, opening ∈ [['\''], ['b', '\'']] ∧ text = opening ++ (inside ++ '\'' :: rest)
      ∧ n = opening.length + inside.length + 1
      ∧ ∀ other, quotedLength (opening ++ (inside ++ '\'' :: other)) = some n := by
  unfold quotedLength at found
  split at found
  · next rest =>
      cases rest with
      | nil => cases found
      | cons c rest =>
          simp only at found
          split at found
          · next ascii =>
              obtain ⟨m, inner, rfl⟩ := Option.map_eq_some_iff.mp found
              obtain ⟨inside, behind, shape, rfl, some, again⟩ := quoted_shape inner
              obtain ⟨d, inside, rfl⟩ := List.exists_cons_of_ne_nil some
              rw [List.cons_append, List.cons.injEq] at shape
              obtain ⟨rfl, rfl⟩ := shape
              refine ⟨['b', '\''], c :: inside, behind, by decide, rfl, by simp; omega, fun other => ?_⟩
              have inner := again strict_bytes other
              rw [List.cons_append] at inner
              simp only [List.cons_append, List.nil_append, quotedLength, if_pos ascii, inner]
              rfl
          · cases found
  · next rest _ =>
      obtain ⟨m, inner, rfl⟩ := Option.map_eq_some_iff.mp found
      obtain ⟨inside, behind, rfl, rfl, -, again⟩ := quoted_shape inner
      refine ⟨['\''], inside, behind, by decide, rfl, by simp; omega, fun other => ?_⟩
      simp only [List.cons_append, List.nil_append, quotedLength, again strict_text other]
      rfl
  · cases found

/-! Literals of all kinds. -/

/-- A text that is quoted or begins with a digit is no string, and what begins with a digit is not quoted. -/
theorem no_string_of_quoted {text : List Char} {n : Nat} (found : quotedLength text = some n) :
    stringLength text = none := by
  obtain ⟨opening, inside, rest, listed, rfl, -⟩ := quoted_length_cases found
  simp only [List.mem_cons, List.not_mem_nil, or_false] at listed
  rcases listed with rfl | rfl <;> rfl

theorem digit_of_number {text : List Char} {n : Nat} (found : numberLength text = some n) :
    ∃ c rest, text = c :: rest ∧ c.isDigit = true := by
  cases text with
  | nil => cases found
  | cons c rest =>
      refine ⟨c, rest, rfl, ?_⟩
      cases digit : c.isDigit with
      | true => rfl
      | false =>
          rw [Lexer.number_length_of_not_digit digit] at found
          cases found

theorem digit_opens_number : ∀ c ∈ "0123456789".toList, c ∉ ['"', 'r', 'b', 'c', '\''] :=
  each_of_all (by decide)

theorem only_number {c : Char} (digit : c.isDigit = true) (rest : List Char) :
    stringLength (c :: rest) = none ∧ quotedLength (c :: rest) = none := by
  have other := digit_opens_number c (digits_listed digit)
  simp only [List.mem_cons, not_or] at other
  constructor
  · unfold stringLength
    split <;> simp_all
  · unfold quotedLength
    split <;> simp_all

theorem string_head {text : List Char} {n : Nat} (found : stringLength text = some n) :
    ∃ c, text.head? = some c ∧ c ∈ ['"', 'r', 'b', 'c'] := by
  obtain ⟨opening, body, read, m, listed, -, rfl, -⟩ := string_length_cases found
  have heads : ∀ opening ∈ ["\"", "r", "b\"", "br", "c\"", "cr"].map String.toList,
      opening.head?.any (['"', 'r', 'b', 'c'].contains ·) = true := by decide
  obtain ⟨c, first, among⟩ := (Option.any_eq_true _ _).mp (heads opening listed)
  exact ⟨c, by rw [List.head?_append, first]; rfl, List.contains_iff_mem.mp among⟩

/-- A literal without its suffix, whatever its suffix and what follows it. -/
structure Stem (front : List Char) : Prop where
  first : ∃ c, front.head? = some c ∧ c ∈ ['"', 'r', 'b', 'c', '\'']
  last : ∃ c, front.getLast? = some c ∧ c ∈ ['"', '#', '\'']
  length : ∀ other, length? (front ++ other) = some (front.length + identLength other)

theorem stem_of_string {front : List Char} (whole : stringLength front = some front.length) : Stem front where
  first := by
    obtain ⟨c, first, listed⟩ := string_head whole
    exact ⟨c, first, List.mem_of_mem_take (i := 4) listed⟩
  last := by
    obtain ⟨c, last, listed⟩ := string_last whole
    exact ⟨c, last, List.mem_of_mem_take (i := 2) listed⟩
  length := by
    intro other
    have alone : stringLength (front ++ []) = some front.length := by rw [List.append_nil, whole]
    have again : stringLength (front ++ other) = some front.length := string_length_append alone
    rw [length?, again]
    simp

theorem stem_of_quoted {opening inside : List Char} (listed : opening ∈ [['\''], ['b', '\'']])
    (quoted : ∀ other, quotedLength (opening ++ (inside ++ '\'' :: other)) = some (opening.length + inside.length + 1)) :
    Stem (opening ++ (inside ++ ['\''])) where
  first := by
    simp only [List.mem_cons, List.not_mem_nil, or_false] at listed
    rcases listed with rfl | rfl
    · exact ⟨'\'', rfl, by decide⟩
    · exact ⟨'b', rfl, by decide⟩
  last := ⟨'\'', by simp [List.getLast?_append], by decide⟩
  length := by
    intro other
    have again := quoted other
    have shape : opening ++ (inside ++ ['\'']) ++ other = opening ++ (inside ++ '\'' :: other) := by simp
    have behind : (opening ++ (inside ++ '\'' :: other)).drop (opening.length + inside.length + 1) = other := by
      rw [← shape]
      exact List.drop_left' (by simp; omega)
    rw [shape, length?, no_string_of_quoted again, again]
    simp only [behind]
    simp only [List.length_append, List.length_singleton, Nat.add_assoc]

/-- A literal is a stem with a suffix, or a number. -/
theorem length_cases {text : List Char} {n : Nat} (found : length? text = some n) :
    (∃ front back, text = front ++ back ∧ Stem front ∧ n = front.length + identLength back)
      ∨ numberLength text = some n := by
  unfold length? at found
  cases string : stringLength text with
  | some m =>
      rw [string] at found
      cases found
      have size : (text.take m).length = m := List.length_take_of_le (string_length_le string)
      refine Or.inl ⟨text.take m, text.drop m, (List.take_append_drop m text).symm, stem_of_string ?_, by rw [size]⟩
      have split := string
      rw [← List.take_append_drop m text] at split
      have alone : stringLength (text.take m ++ []) = some (text.take m).length :=
        string_length_append (by rw [split, size])
      rwa [List.append_nil] at alone
  | none =>
      rw [string] at found
      cases quote : quotedLength text with
      | some m =>
          rw [quote] at found
          cases found
          obtain ⟨opening, inside, rest, listed, rfl, rfl, again⟩ := quoted_length_cases quote
          have shape : opening ++ (inside ++ '\'' :: rest) = opening ++ (inside ++ ['\'']) ++ rest := by simp
          refine Or.inl ⟨opening ++ (inside ++ ['\'']), rest, shape, stem_of_quoted listed again, ?_⟩
          have behind : (opening ++ (inside ++ '\'' :: rest)).drop (opening.length + inside.length + 1) = rest := by
            rw [shape]
            exact List.drop_left' (by simp; omega)
          rw [behind]
          simp only [List.length_append, List.length_singleton, Nat.add_assoc]
      | none =>
          rw [quote] at found
          exact Or.inr found

variable {text : List Char}

/-- A whole literal is taken in full where a character of the patterns follows it. -/
theorem length_followed (whole : length? text = some text.length) (ends : Ends rest) :
    length? (text ++ rest) = some text.length := by
  rcases length_cases whole with ⟨front, back, rfl, stem, size⟩ | number
  · rw [List.append_assoc, stem.length, ident_length_stops ends.stops, ← size]
  · obtain ⟨c, more, rfl, digit⟩ := digit_of_number number
    obtain ⟨string, quoted⟩ := only_number digit (more ++ rest)
    rw [← number_length_ends ends] at number
    rw [List.cons_append] at number ⊢
    rw [length?, string, quoted, number]

theorem seams_apart : ∀ c ∈ seams, c ∉ ['"', '#', '\''] :=
  each_of_all (by decide)

/-- A whole literal does not end with a character of the patterns. -/
theorem last_char (whole : length? text = some text.length) : ∀ c, text.getLast? = some c → c ∉ seams := by
  rcases length_cases whole with ⟨front, back, rfl, stem, size⟩ | number
  · intro c last seam
    cases back with
    | nil =>
        obtain ⟨d, same, listed⟩ := stem.last
        rw [List.append_nil, same] at last
        obtain rfl : d = c := Option.some.inj last
        exact seams_apart d seam listed
    | cons e back =>
        have plain : identLength (e :: back) = (e :: back).length := by
          rw [List.length_append] at size
          omega
        rw [List.getLast?_append, List.getLast?_cons, Option.some_or] at last
        have member : c ∈ e :: back := List.mem_of_getLast? (by rw [List.getLast?_cons, last])
        have continues := plain_ident_chars plain c member
        rw [(seams_end c (List.mem_cons_of_mem _ seam)).1] at continues
        cases continues
  · exact number_last number

/-- The characters that literals begin with. -/
def openers : List Char := "\"'rbc0123456789".toList

theorem first_char {n : Nat} (found : length? text = some n) : ∃ c rest, text = c :: rest ∧ c ∈ openers := by
  have among : ['"', 'r', 'b', 'c', '\''] ++ "0123456789".toList ⊆ openers := by decide
  rcases length_cases found with ⟨front, back, rfl, stem, -⟩ | number
  · obtain ⟨c, first, listed⟩ := stem.first
    obtain ⟨front, rfl⟩ := List.head?_eq_some_iff.mp first
    exact ⟨c, front ++ back, rfl, among (List.mem_append_left _ listed)⟩
  · obtain ⟨c, rest, rfl, digit⟩ := digit_of_number number
    exact ⟨c, rest, rfl, among (List.mem_append_right _ (digits_listed digit))⟩

theorem leaf_of_literal {name : Literal} (whole : length? name.text.toList = some name.text.toList.length)
    (ends : Ends rest) : Lexer.leaf? (name.text.toList ++ rest) = some (.literal name, name.text.toList.length) := by
  have found := length_followed whole ends
  unfold Lexer.leaf?
  split
  · next n again =>
      obtain rfl : n = name.text.toList.length := Option.some.inj (again.symm.trans found)
      have same : front (name.text.toList ++ rest) again = name := by
        ext1
        simp [front]
      rw [same]
  · next none =>
      rw [found] at none
      cases none

end Accessors.Literal
