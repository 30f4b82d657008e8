import Accessors.Token.Ident
import Accessors.Token.LiteralKind

/-!
Strings of any kind are read without regard to what follows them. So a text literal that a lexer took off the front
of a text is one literal as a whole, and it is taken again, in full, wherever it is written with a space behind it.
-/

namespace Accessors.Literal

open Text (isIdentStart isIdentContinue)

variable {back other : List Char}

/-! Each recogniser looks at the characters that it takes and at one more at most. -/

theorem line_join_length_append : ∀ {last : Char} {front : List Char} {n : Nat},
    lineJoinLength last (front ++ back) = some n → n < front.length →
      lineJoinLength last (front ++ other) = some n
  | _, [], _, _, short => absurd short (Nat.not_lt_zero _)
  | last, [c], n, found, short => by
      obtain rfl : n = 0 := by simpa using short
      unfold lineJoinLength at found ⊢
      simp only [List.singleton_append] at found ⊢
      by_cases returned : last = '\r'
      · -- a line feed is taken here, so the length would not be zero
        rw [if_pos returned] at found
        split at found
        · split at found
          · cases found
          · split at found <;> simp at found
        · cases found
      · simp_all
  | last, c :: d :: front, n, found, short => by
      simp only [List.cons_append, lineJoinLength, List.length_cons] at found short ⊢
      by_cases returned : last = '\r'
      · by_cases blank : d = ' ' ∨ d = '\t' ∨ d = '\n' ∨ d = '\r'
        · simp only [returned, blank, if_true] at found ⊢
          split at found
          · next fed =>
              obtain ⟨m, inner, rfl⟩ := Option.map_eq_some_iff.mp found
              simp [fed, line_join_length_append inner (by omega)]
          · cases found
        · simp_all
      · by_cases blank : c = ' ' ∨ c = '\t' ∨ c = '\n' ∨ c = '\r'
        · simp only [returned, blank, if_true, if_false] at found ⊢
          obtain ⟨m, inner, rfl⟩ := Option.map_eq_some_iff.mp found
          have again : lineJoinLength c (d :: front ++ other) = some m :=
            line_join_length_append inner (by simp only [List.length_cons]; omega)
          simpa using again
        · simp_all

theorem code_point_append {front : List Char} {value digits v n : Nat}
    (found : codePoint? value digits (front ++ back) = some (v, n)) (short : n ≤ front.length) :
    codePoint? value digits (front ++ other) = some (v, n) := by
  induction front generalizing value digits n with
  | nil =>
      obtain rfl : n = 0 := by simpa using short
      cases back with
      | nil => cases found
      | cons c back =>
          simp only [List.nil_append, codePoint?] at found
          split at found
          · split at found <;> simp at found
          · split at found
            · simp at found
            · split at found <;> simp at found
  | cons c front ih =>
      simp only [List.cons_append, codePoint?, List.length_cons] at found short ⊢
      split at found
      · split at found
        · cases found
        · next d digit few =>
            obtain ⟨⟨w, m⟩, inner, same⟩ := Option.map_eq_some_iff.mp found
            obtain ⟨rfl, rfl⟩ := Prod.mk.inj same
            simp [few, ih inner (by omega)]
      · split at found
        · next ends =>
            obtain ⟨⟨w, m⟩, inner, same⟩ := Option.map_eq_some_iff.mp found
            obtain ⟨rfl, rfl⟩ := Prod.mk.inj same
            simp [ends, ih inner (by omega)]
        · next goes =>
            rw [if_neg goes]
            exact found

/-- The letters of the longer escapes are no escapes by themselves. -/
def Cooked.Strict (kind : Cooked) : Prop := 'x' ∉ kind.escapes ∧ 'u' ∉ kind.escapes

theorem strict_text : Cooked.text.Strict := ⟨by decide, by decide⟩

theorem strict_bytes : Cooked.bytes.Strict := ⟨by decide, by decide⟩

theorem strict_c_text : Cooked.cText.Strict := ⟨by decide, by decide⟩

section

variable {kind : Cooked}

theorem escape_length_append (strict : kind.Strict) {front : List Char} {n : Nat}
    (found : kind.escapeLength (front ++ back) = some n) (short : n ≤ front.length) :
    kind.escapeLength (front ++ other) = some n := by
  unfold Cooked.escapeLength at found
  split at found
  · cases found
  · next c d more shape =>
      split at found
      · next digits =>
          cases found
          match front, short with
          | x :: a :: b :: front, _ =>
              simp only [List.cons_append, List.cons.injEq] at shape
              obtain ⟨rfl, rfl, rfl, -⟩ := shape
              simp [Cooked.escapeLength, digits]
      · cases found
  · next rest shape =>
      split at found
      · next v m point =>
          split at found
          · next allowed =>
              cases found
              match front, short with
              | x :: y :: front, short =>
                  simp only [List.cons_append, List.cons.injEq] at shape
                  obtain ⟨rfl, rfl, rfl⟩ := shape
                  have again : codePoint? 0 0 (front ++ other) = some (v, m) :=
                    code_point_append point (by simpa using short)
                  simp [Cooked.escapeLength, again, allowed]
          · cases found
      · cases found
  · next c rest notHex notPoint shape =>
      split at found
      · next allowed =>
          cases found
          match front, short with
          | x :: front, _ =>
              simp only [List.cons_append, List.cons.injEq] at shape
              obtain ⟨rfl, rfl⟩ := shape
              have letter : x ≠ 'x' ∧ x ≠ 'u' :=
                ⟨fun same => strict.1 (same ▸ allowed), fun same => strict.2 (same ▸ allowed)⟩
              unfold Cooked.escapeLength
              split <;> simp_all
      · cases found

theorem skip_append (strict : kind.Strict) {front : List Char} {n : Nat}
    (found : kind.skip? (front ++ back) = some n) (short : n < front.length) :
    kind.skip? (front ++ other) = some n := by
  match front, short with
  | c :: front, short =>
      by_cases joins : c = '\n' ∨ c = '\r'
      · have join : ∀ rest, kind.skip? (c :: rest) = (lineJoinLength c rest).map (· + 1) := by
          rcases joins with rfl | rfl <;> exact fun _ => rfl
        rw [List.cons_append, join] at found ⊢
        obtain ⟨m, inner, rfl⟩ := Option.map_eq_some_iff.mp found
        rw [line_join_length_append inner (by simpa using short)]
        rfl
      · have escape : ∀ rest, kind.skip? (c :: rest) = kind.escapeLength (c :: rest) := by
          intro rest
          unfold Cooked.skip?
          split <;> simp_all
        rw [List.cons_append, escape] at found ⊢
        rw [← List.cons_append] at found ⊢
        exact escape_length_append strict found (Nat.le_of_lt short)

theorem body_length_solid {c : Char} (solid : c ≠ '"' ∧ c ≠ '\r' ∧ c ≠ '\\') (rest : List Char) :
    kind.bodyLength 0 (c :: rest) = if kind.plain c then (kind.bodyLength 0 rest).map (· + 1) else none := by
  rw [Cooked.bodyLength.eq_def]
  split <;> simp_all

theorem body_length_plain {c : Char} (solid : c ≠ '"' ∧ c ≠ '\r' ∧ c ≠ '\\') (rest : List Char) :
    Cooked.text.bodyLength 0 (c :: rest) = (Cooked.text.bodyLength 0 rest).map (· + 1) :=
  body_length_solid solid rest

/-- A carriage return stands before a line feed. -/
theorem body_length_return {rest : List Char} {n : Nat} (found : kind.bodyLength 0 ('\r' :: rest) = some n) :
    ∃ tail, rest = '\n' :: tail ∧ (kind.bodyLength 0 rest).map (· + 1) = some n := by
  by_cases feed : ∃ tail, rest = '\n' :: tail
  · obtain ⟨tail, rfl⟩ := feed
    exact ⟨tail, rfl, found⟩
  · rw [Cooked.bodyLength.eq_5 _ _ fun tail shape => feed ⟨tail, shape⟩] at found
    cases found

/-- A body goes on behind what an escape lets pass, at least with its closing quote. -/
theorem passing_lt_body_length {text : List Char} {passing n : Nat}
    (found : kind.bodyLength passing text = some n) : passing < n := by
  induction text generalizing passing n with
  | nil => cases passing <;> cases found
  | cons c rest ih =>
      cases passing with
      | succ passing =>
          obtain ⟨m, inner, rfl⟩ := Option.map_eq_some_iff.mp found
          have more := ih inner
          omega
      | zero =>
          refine Nat.pos_of_ne_zero fun zero => ?_
          subst zero
          by_cases quote : c = '"'
          · subst quote
            cases found
          by_cases returned : c = '\r'
          · subst returned
            obtain ⟨tail, -, inner⟩ := body_length_return found
            simp at inner
          by_cases escaped : c = '\\'
          · subst escaped
            rw [body_length_escape] at found
            obtain ⟨skip, -, inner⟩ := Option.bind_eq_some_iff.mp found
            simp at inner
          · rw [body_length_solid ⟨quote, returned, escaped⟩] at found
            split at found <;> simp at found

theorem body_length_append (strict : kind.Strict) {front : List Char} {passing : Nat}
    (found : kind.bodyLength passing (front ++ back) = some front.length) :
    kind.bodyLength passing (front ++ other) = some front.length := by
  induction front generalizing passing with
  | nil => exact absurd (passing_lt_body_length found) (Nat.not_lt_zero _)
  | cons c front ih =>
      have step : ∀ {passing : Nat},
          (kind.bodyLength passing (front ++ back)).map (· + 1) = some (front.length + 1) →
            (kind.bodyLength passing (front ++ other)).map (· + 1) = some (front.length + 1) := by
        intro passing inner
        obtain ⟨m, inner, same⟩ := Option.map_eq_some_iff.mp inner
        obtain rfl : m = front.length := Nat.succ.inj same
        rw [ih inner]
        rfl
      cases passing with
      | succ passing => exact step found
      | zero =>
          by_cases quote : c = '"'
          · subst quote
            exact found
          by_cases returned : c = '\r'
          · subst returned
            obtain ⟨tail, fed, inner⟩ := body_length_return found
            match front with
            | [] =>
                obtain ⟨m, body, same⟩ := Option.map_eq_some_iff.mp inner
                obtain rfl : m = 0 := Nat.succ.inj same
                exact absurd (passing_lt_body_length body) (Nat.lt_irrefl 0)
            | d :: front =>
                obtain ⟨rfl, -⟩ := List.cons.inj fed
                exact step inner
          by_cases escaped : c = '\\'
          · subst escaped
            rw [List.cons_append, body_length_escape] at found ⊢
            obtain ⟨skip, skipped, inner⟩ := Option.bind_eq_some_iff.mp found
            obtain ⟨m, body, same⟩ := Option.map_eq_some_iff.mp inner
            obtain rfl : m = front.length := Nat.succ.inj same
            rw [skip_append strict skipped (passing_lt_body_length body)]
            exact step inner
          · have solid := And.intro quote (And.intro returned escaped)
            rw [List.cons_append, body_length_solid solid] at found ⊢
            split at found
            · next plain =>
                rw [if_pos plain]
                exact step found
            · cases found

end

section

variable {plain : Char → Bool}

theorem hashes_lt_raw_body_length {hashes n : Nat} {text : List Char}
    (found : rawBodyLength plain hashes text = some n) : hashes < n := by
  fun_induction rawBodyLength plain hashes text generalizing n with
  | case1 => cases found
  | case2 rest ends =>
      cases found
      omega
  | case3 rest goes ih =>
      obtain ⟨m, inner, rfl⟩ := Option.map_eq_some_iff.mp found
      exact Nat.lt_succ_of_lt (ih inner)
  | case4 rest ih =>
      obtain ⟨m, inner, rfl⟩ := Option.map_eq_some_iff.mp found
      exact Nat.lt_succ_of_lt (Nat.lt_succ_of_lt (ih inner))
  | case5 => cases found
  | case6 c rest quote feed returned plain ih =>
      obtain ⟨m, inner, rfl⟩ := Option.map_eq_some_iff.mp found
      exact Nat.lt_succ_of_lt (ih inner)
  | case7 => cases found

/-- Whether number signs stand in front is told by the characters that are there. -/
theorem hashes_prefix_append {hashes : Nat} {front : List Char} (long : hashes ≤ front.length) :
    (List.replicate hashes '#').isPrefixOf (front ++ other) = (List.replicate hashes '#').isPrefixOf front := by
  rw [Bool.eq_iff_iff, List.isPrefixOf_iff_prefix, List.isPrefixOf_iff_prefix]
  exact ⟨fun longer => List.prefix_of_prefix_length_le longer (List.prefix_append front other) (by simpa using long),
    List.prefix_append_of_prefix⟩

theorem raw_body_length_append {hashes : Nat} {front : List Char}
    (found : rawBodyLength plain hashes (front ++ back) = some front.length) :
    rawBodyLength plain hashes (front ++ other) = some front.length := by
  generalize whole : front ++ back = text at found
  fun_induction rawBodyLength plain hashes text generalizing front with
  | case1 => cases found
  | case2 rest ends =>
      match front with
      | [] => simp at found
      | c :: front =>
          rw [List.cons_append, List.cons.injEq] at whole
          obtain ⟨rfl, rfl⟩ := whole
          have long : hashes ≤ front.length := by
            have same := Option.some.inj found
            simp only [List.length_cons] at same
            omega
          rw [hashes_prefix_append long] at ends
          rw [List.cons_append, rawBodyLength.eq_2, hashes_prefix_append long, if_pos ends]
          exact found
  | case3 rest goes ih =>
      obtain ⟨m, inner, same⟩ := Option.map_eq_some_iff.mp found
      match front with
      | [] => simp at same
      | c :: front =>
          rw [List.cons_append, List.cons.injEq] at whole
          obtain ⟨rfl, rfl⟩ := whole
          obtain rfl : m = front.length := Nat.succ.inj same
          have long := Nat.le_of_lt (hashes_lt_raw_body_length inner)
          rw [hashes_prefix_append long] at goes
          rw [List.cons_append, rawBodyLength.eq_2, hashes_prefix_append long, if_neg goes, ih rfl inner]
          rfl
  | case4 rest ih =>
      obtain ⟨m, inner, same⟩ := Option.map_eq_some_iff.mp found
      match front with
      | [] => simp at same
      | [c] =>
          obtain rfl : m = 0 := by simp at same
          exact absurd (hashes_lt_raw_body_length inner) (Nat.not_lt_zero _)
      | c :: d :: front =>
          simp only [List.cons_append, List.cons.injEq] at whole
          obtain ⟨rfl, rfl, rfl⟩ := whole
          obtain rfl : m = front.length := by simpa using same
          rw [List.cons_append, List.cons_append, rawBodyLength.eq_3, ih rfl inner]
          rfl
  | case5 => cases found
  | case6 c rest quote feed returned plain ih =>
      obtain ⟨m, inner, same⟩ := Option.map_eq_some_iff.mp found
      match front with
      | [] => simp at same
      | c :: front =>
          rw [List.cons_append, List.cons.injEq] at whole
          obtain ⟨rfl, rfl⟩ := whole
          obtain rfl : m = front.length := Nat.succ.inj same
          rw [List.cons_append, rawBodyLength.eq_5 _ _ _ _ quote (fun _ same _ => returned same) returned,
            if_pos plain, ih rfl inner]
          rfl
  | case7 => cases found

/-- A raw string by its number signs and the quote behind them. -/
theorem raw_length_eq (hashes : Nat) (rest : List Char) :
    rawLength plain (List.replicate hashes '#' ++ '"' :: rest)
      = if hashes ≤ 255 then (rawBodyLength plain hashes rest).map (· + (hashes + 1)) else none := by
  simp [rawLength]

theorem raw_length_shape {text : List Char} {n : Nat} (found : rawLength plain text = some n) :
    ∃ hashes rest, text = List.replicate hashes '#' ++ '"' :: rest := by
  have split := List.takeWhile_append_dropWhile (p := (· == '#')) (l := text)
  have signs : text.takeWhile (· == '#') = List.replicate (text.takeWhile (· == '#')).length '#' := by
    refine List.eq_replicate_of_mem fun c member => ?_
    simpa using List.all_eq_true.mp (List.all_takeWhile (p := (· == '#')) (l := text)) c member
  have behind : text.drop (text.takeWhile (· == '#')).length = text.dropWhile (· == '#') := by
    have dropped := congrArg (List.drop (text.takeWhile (· == '#')).length) split
    rw [List.drop_left] at dropped
    exact dropped.symm
  rw [rawLength, behind] at found
  split at found
  · next rest quote =>
      refine ⟨(text.takeWhile (· == '#')).length, rest, ?_⟩
      rw [← signs, ← quote, split]
  · cases found

theorem raw_length_append {front : List Char}
    (found : rawLength plain (front ++ back) = some front.length) :
    rawLength plain (front ++ other) = some front.length := by
  obtain ⟨hashes, rest, shape⟩ := raw_length_shape found
  rw [shape, raw_length_eq] at found
  split at found
  · next few =>
      obtain ⟨m, inner, size⟩ := Option.map_eq_some_iff.mp found
      -- the signs and the quote stand in the front part, since the string is longer
      have opening : List.replicate hashes '#' ++ ['"'] <+: front := by
        refine List.prefix_of_prefix_length_le ?_ (List.prefix_append front back) ?_
        · exact ⟨rest, by rw [shape]; simp⟩
        · simp only [List.length_append, List.length_replicate, List.length_singleton]
          omega
      obtain ⟨body, rfl⟩ := opening
      have more : rest = body ++ back := by simpa using shape.symm
      have long : m = body.length := by
        simp only [List.length_append, List.length_replicate, List.length_singleton] at size
        omega
      rw [more, long] at inner
      rw [List.append_assoc, List.append_assoc, List.singleton_append, raw_length_eq, if_pos few,
        raw_body_length_append inner, Option.map_some, ← long, size]
  · cases found

/-- Whether a text begins as a text literal does. -/
def opensText (text : List Char) : Prop := text.head? = some '"' ∨ text.head? = some 'r'

/-- What begins as a text literal is no other literal. -/
theorem length_of_opens_text {text : List Char} (opens : opensText text) :
    length? text = (stringLength text).map fun n => n + identLength (text.drop n) := by
  have others : quotedLength text = none ∧ numberLength text = none := by
    match text with
    | [] => simp [opensText] at opens
    | c :: rest =>
        rcases opens with quote | raw
        · obtain rfl : c = '"' := by simpa using quote
          exact ⟨rfl, by simp [numberLength, integerLength, digitsLength, hexDigit?]⟩
        · obtain rfl : c = 'r' := by simpa using raw
          exact ⟨rfl, by simp [numberLength, integerLength, digitsLength, hexDigit?]⟩
  rw [length?, others.1, others.2]
  cases stringLength text <;> rfl

theorem body_length_le {kind : Cooked} {text : List Char} {passing n : Nat}
    (found : kind.bodyLength passing text = some n) : n ≤ text.length := by
  fun_induction Cooked.bodyLength kind passing text generalizing n with
  | case1 | case5 | case7 | case9 => cases found
  | case2 passing c rest ih | case8 c rest quote returned escaped plain ih =>
      obtain ⟨m, inner, rfl⟩ := Option.map_eq_some_iff.mp found
      exact Nat.succ_le_succ (ih inner)
  | case3 rest =>
      cases found
      simp
  | case4 rest ih =>
      obtain ⟨m, inner, rfl⟩ := Option.map_eq_some_iff.mp found
      exact Nat.succ_le_succ (ih inner)
  | case6 rest skip passed skips =>
      rename_i ih
      obtain ⟨m, inner, rfl⟩ := Option.map_eq_some_iff.mp found
      exact Nat.succ_le_succ (ih inner)

theorem raw_body_length_le {plain : Char → Bool} {hashes n : Nat} {text : List Char}
    (found : rawBodyLength plain hashes text = some n) : n ≤ text.length := by
  fun_induction rawBodyLength plain hashes text generalizing n with
  | case1 | case5 | case7 => cases found
  | case2 rest ends =>
      cases found
      have signs := (List.isPrefixOf_iff_prefix.mp ends).length_le
      simp only [List.length_replicate, List.length_cons] at signs ⊢
      omega
  | case3 rest goes ih | case6 c rest quote feed returned plain ih =>
      obtain ⟨m, inner, rfl⟩ := Option.map_eq_some_iff.mp found
      exact Nat.succ_le_succ (ih inner)
  | case4 rest ih =>
      obtain ⟨m, inner, rfl⟩ := Option.map_eq_some_iff.mp found
      exact Nat.succ_le_succ (Nat.succ_le_succ (ih inner))

end

/-- How the body of a string is read, behind what announces it. -/
def ReadsBody (read : List Char → Option Nat) : Prop :=
  (∃ kind : Cooked, kind.Strict ∧ read = kind.bodyLength 0) ∨ ∃ plain, read = rawLength plain

namespace ReadsBody

variable {read : List Char → Option Nat}

theorem append (reads : ReadsBody read) {front : List Char} (found : read (front ++ back) = some front.length) :
    read (front ++ other) = some front.length := by
  rcases reads with ⟨kind, strict, rfl⟩ | ⟨plain, rfl⟩
  · exact body_length_append strict found
  · exact raw_length_append found

theorem length_le (reads : ReadsBody read) {text : List Char} {n : Nat} (found : read text = some n) :
    n ≤ text.length := by
  rcases reads with ⟨kind, -, rfl⟩ | ⟨plain, rfl⟩
  · exact body_length_le found
  · obtain ⟨hashes, body, rfl⟩ := raw_length_shape found
    rw [raw_length_eq] at found
    split at found
    · obtain ⟨k, inner, rfl⟩ := Option.map_eq_some_iff.mp found
      have bound := raw_body_length_le inner
      simp only [List.length_append, List.length_replicate, List.length_cons]
      omega
    · cases found

end ReadsBody

/-- A string is announced by some characters, and behind them its body is read. -/
theorem string_length_cases {text : List Char} {n : Nat} (found : stringLength text = some n) :
    ∃ (opening body : List Char) (read : List Char → Option Nat) (m : Nat),
      opening ∈ ["\"", "r", "b\"", "br", "c\"", "cr"].map String.toList ∧ ReadsBody read ∧ text = opening ++ body
        ∧ read body = some m ∧ n = m + opening.length
        ∧ ∀ other, stringLength (opening ++ other) = (read other).map (· + opening.length) := by
  unfold stringLength at found
  split at found
  · next rest =>
      obtain ⟨m, inner, rfl⟩ := Option.map_eq_some_iff.mp found
      exact ⟨['"'], rest, _, m, by decide, Or.inl ⟨_, strict_text, rfl⟩, rfl, inner, rfl, fun _ => rfl⟩
  · next rest =>
      obtain ⟨m, inner, rfl⟩ := Option.map_eq_some_iff.mp found
      exact ⟨['r'], rest, _, m, by decide, Or.inr ⟨_, rfl⟩, rfl, inner, rfl, fun _ => rfl⟩
  · next rest =>
      obtain ⟨m, inner, rfl⟩ := Option.map_eq_some_iff.mp found
      exact ⟨['b', '"'], rest, _, m, by decide, Or.inl ⟨_, strict_bytes, rfl⟩, rfl, inner, rfl, fun _ => rfl⟩
  · next rest =>
      obtain ⟨m, inner, rfl⟩ := Option.map_eq_some_iff.mp found
      exact ⟨['b', 'r'], rest, _, m, by decide, Or.inr ⟨_, rfl⟩, rfl, inner, rfl, fun _ => rfl⟩
  · next rest =>
      obtain ⟨m, inner, rfl⟩ := Option.map_eq_some_iff.mp found
      exact ⟨['c', '"'], rest, _, m, by decide, Or.inl ⟨_, strict_c_text, rfl⟩, rfl, inner, rfl, fun _ => rfl⟩
  · next rest =>
      obtain ⟨m, inner, rfl⟩ := Option.map_eq_some_iff.mp found
      exact ⟨['c', 'r'], rest, _, m, by decide, Or.inr ⟨_, rfl⟩, rfl, inner, rfl, fun _ => rfl⟩
  · cases found

theorem string_length_append {front : List Char} (found : stringLength (front ++ back) = some front.length) :
    stringLength (front ++ other) = some front.length := by
  obtain ⟨opening, body, read, m, -, reads, shape, inner, size, again⟩ := string_length_cases found
  have opens : opening <+: front :=
    List.prefix_of_prefix_length_le ⟨body, shape.symm⟩ (List.prefix_append front back) (by omega)
  obtain ⟨inside, rfl⟩ := opens
  rw [List.append_assoc] at shape
  obtain rfl := List.append_cancel_left shape
  rw [List.length_append] at size ⊢
  obtain rfl : m = inside.length := by omega
  rw [List.append_assoc, again, reads.append inner, Option.map_some, Nat.add_comm]

theorem string_length_le {text : List Char} {n : Nat} (found : stringLength text = some n) : n ≤ text.length := by
  obtain ⟨opening, body, read, m, -, reads, rfl, inner, rfl, -⟩ := string_length_cases found
  have bound := reads.length_le inner
  rw [List.length_append]
  omega

theorem string_length_pos {text : List Char} {n : Nat} (found : stringLength text = some n) : 0 < n := by
  obtain ⟨opening, body, read, m, listed, -, -, -, rfl, -⟩ := string_length_cases found
  have some : ∀ opening ∈ ["\"", "r", "b\"", "br", "c\"", "cr"].map String.toList, 0 < opening.length := by decide
  have pos := some opening listed
  omega

/-- A text literal without its suffix, and the suffix. -/
theorem text_length_split {text : List Char} {n : Nat} (opens : opensText text) (found : length? text = some n) :
    ∃ front back, text = front ++ back ∧ opensText front ∧ stringLength text = some front.length
      ∧ n = front.length + identLength back := by
  rw [length_of_opens_text opens] at found
  obtain ⟨m, body, rfl⟩ := Option.map_eq_some_iff.mp found
  have bound := string_length_le body
  have size : (text.take m).length = m := List.length_take_of_le bound
  refine ⟨text.take m, text.drop m, (List.take_append_drop m text).symm, ?_, by rw [size, body], by rw [size]⟩
  have pos := string_length_pos body
  cases text with
  | nil => simp [opensText] at opens
  | cons c rest =>
      obtain ⟨k, rfl⟩ := Nat.exists_eq_succ_of_ne_zero (Nat.pos_iff_ne_zero.mp pos)
      exact opens

/-- A text literal that was taken off the front of a text is one literal as a whole. -/
theorem text_length_take {text : List Char} {n : Nat} (opens : opensText text) (found : length? text = some n) :
    length? (text.take n) = some (text.take n).length := by
  obtain ⟨front, back, rfl, opens, body, rfl⟩ := text_length_split opens found
  have suffix := plain_ident_length_take back
  have bound := plain_ident_length_le back
  have taken : (front ++ back).take (front.length + identLength back) = front ++ back.take (identLength back) :=
    List.take_length_add_append _
  have whole : opensText (front ++ back.take (identLength back)) := by
    cases front with
    | nil => simp [opensText] at opens
    | cons c front => exact opens
  rw [taken, length_of_opens_text whole, string_length_append body, Option.map_some, List.drop_left, suffix]
  simp [bound]

/-- A text literal is taken in full where a space follows it. -/
theorem text_length_followed {text : List Char} (opens : opensText text) (whole : length? text = some text.length)
    (more : List Char) : length? (text ++ ' ' :: more) = some text.length := by
  obtain ⟨front, back, rfl, opens, body, size⟩ := text_length_split opens whole
  have opensWhole : opensText (front ++ (back ++ ' ' :: more)) := by
    cases front with
    | nil => simp [opensText] at opens
    | cons c front => exact opens
  have plain : identLength back = back.length := by
    rw [List.length_append] at size
    omega
  have suffix : identLength (back ++ ' ' :: more) = identLength back := by
    rw [plain_ident_length_append plain (by decide), plain]
  rw [List.append_assoc, length_of_opens_text opensWhole, string_length_append body, Option.map_some,
    List.drop_left, suffix, ← size]

end Accessors.Literal

namespace Accessors

/-- A literal as it is written. A text literal is one literal as a whole. -/
structure Literal where
  text : String
  whole : Literal.isText text = true → Literal.length? text.toList = some text.toList.length
  deriving DecidableEq, Repr

namespace Literal

@[ext] theorem ext {a b : Literal} (same : a.text = b.text) : a = b := by
  cases a
  cases b
  cases same
  rfl

theorem opens_text_of_is_text {text : String} (text? : isText text = true) : opensText text.toList := by
  unfold isText at text?
  split at text?
  · next shape => simp [opensText, shape]
  · next shape => simp [opensText, shape]
  · cases text?

/-- The literal at the front of a text. -/
def front (text : List Char) {n : Nat} (found : length? text = some n) : Literal where
  text := String.ofList (text.take n)
  whole := by
    intro text?
    have opens := opens_text_of_is_text text?
    rw [String.toList_ofList] at opens ⊢
    refine text_length_take ?_ found
    cases text with
    | nil => simp [opensText] at opens
    | cons c rest =>
        cases n with
        | zero => simp [opensText] at opens
        | succ n => exact opens

/-- The digits of a number. -/
def ofNat (n : Nat) : Literal where
  text := toString n
  whole := by
    intro text?
    have digit : ∀ c ∈ (toString n).toList, c.isDigit = true := by
      intro c member
      rw [show (toString n).toList = Nat.toDigits 10 n from Nat.toList_repr] at member
      exact Nat.isDigit_of_mem_toDigits (by decide) (by decide) member
    rcases opens_text_of_is_text text? with quote | raw
    · exact absurd (digit _ (List.mem_of_mem_head? quote)) (by decide)
    · exact absurd (digit _ (List.mem_of_mem_head? raw)) (by decide)

end Literal

/-- A text literal. -/
structure TextLiteral extends Literal where
  isText : Literal.isText text = true
  deriving DecidableEq, Repr

end Accessors
