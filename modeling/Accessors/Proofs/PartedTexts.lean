import Accessors.Proofs.LexedTokens

/-!
Texts in longer texts. Behind a text there stands the end, a blank or what closes a group: then the lexer finds in it
what it finds there by itself, provided that no comment at its end takes in what stands behind it on the same line.
-/

namespace Accessors.Lexer

open Literal (Ends Stops)

/-- What stands behind a text parts it from the rest: a blank, what closes a group, or nothing. -/
def Parted (back : List Char) : Prop := ∀ c, back.head? = some c → c ∈ [' ', ')', ']']

variable {text back : List Char}

namespace Parted

theorem nil : Parted [] := fun _ first => by cases first

theorem cons {c : Char} (listed : c ∈ [' ', ')', ']']) (rest : List Char) : Parted (c :: rest) := by
  intro d first
  obtain rfl : c = d := by simpa using first
  exact listed

theorem ends (parted : Parted back) : Ends back := by
  have table : [' ', ')', ']'] ⊆ '\n' :: Spacing.seams := by decide
  exact fun c first => table (parted c first)

/-- What does not continue an operator, a comment, a word or the opening of a string. -/
theorem apart (parted : Parted back) : ∀ c, back.head? = some c → c ∉ punctChars ∧ c ∉ ['/', '*', '#', '"', '\'', 'r'] := by
  have table : ∀ c ∈ [' ', ')', ']'], c ∉ punctChars ∧ c ∉ ['/', '*', '#', '"', '\'', 'r'] := each_of_all (by decide)
  exact fun c first => table c (parted c first)

theorem not_head (parted : Parted back) {c : Char} (other : c ∈ ['/', '*', '#', '"', '\'', 'r']) : ∀ rest, back ≠ c :: rest := by
  rintro rest rfl
  exact (parted.apart c rfl).2 other

/-- No comment begins at a slash with nothing of the text behind it. -/
theorem starts_comment (parted : Parted back) (c : Char) (text : List Char) :
    startsComment (c :: (text ++ back)) = startsComment (c :: text) := by
  cases text with
  | cons d text => exact starts_comment_head rfl
  | nil =>
      cases back with
      | nil => rfl
      | cons d back =>
          have slash : d ≠ '/' := fun same => parted.not_head (c := '/') (by decide) back (by rw [same])
          have star : d ≠ '*' := fun same => parted.not_head (c := '*') (by decide) back (by rw [same])
          simp [startsComment, slash, star]

theorem starts_punct (parted : Parted back) (text : List Char) : startsPunct (text ++ back) = startsPunct text := by
  cases text with
  | cons c text => simp only [List.cons_append, startsPunct, parted.starts_comment c text]
  | nil =>
      cases back with
      | nil => rfl
      | cons c back =>
          have plain := (parted.apart c rfl).1
          simp [startsPunct, plain]

theorem opening (parted : Parted back) {m : List Char} (known : ∀ c ∈ m, c ∉ [' ', ')', ']']) (text : List Char) :
    m.isPrefixOf (text ++ back) = m.isPrefixOf text := by
  induction m generalizing text with
  | nil => simp
  | cons m mark ih =>
      have later := ih fun c member => known c (List.mem_cons_of_mem m member)
      cases text with
      | cons c text => simp only [List.cons_append, List.isPrefixOf, later text]
      | nil =>
          cases back with
          | nil => rfl
          | cons c back =>
              have other : m ≠ c := by
                rintro rfl
                exact known m List.mem_cons_self (parted m rfl)
              simp [List.isPrefixOf, other]

theorem string_openings (parted : Parted back) (text : List Char) :
    stringOpenings.any (·.isPrefixOf (text ++ back)) = stringOpenings.any (·.isPrefixOf text) := by
  have known : ∀ mark ∈ stringOpenings, ∀ c ∈ mark, c ∉ [' ', ')', ']'] := by
    have table : ∀ mark ∈ stringOpenings, mark.all (fun c => decide (c ∉ [' ', ')', ']'])) = true := by decide
    exact fun mark listed => each_of_all (table mark listed)
  rw [Bool.eq_iff_iff, List.any_eq_true, List.any_eq_true]
  constructor
  · rintro ⟨mark, listed, opens⟩
    exact ⟨mark, listed, by rwa [parted.opening (known mark listed)] at opens⟩
  · rintro ⟨mark, listed, opens⟩
    exact ⟨mark, listed, by rwa [parted.opening (known mark listed)]⟩

/-! Words. -/

theorem ident_length (parted : Parted back) (text : List Char) : identLength (text ++ back) = identLength text := by
  have stops := parted.ends.stops
  by_cases raw : ∃ rest, text = 'r' :: '#' :: rest
  · obtain ⟨rest, rfl⟩ := raw
    have inner := Literal.ident_length_stops stops rest
    simp only [List.cons_append, identLength, inner]
    cases found : Literal.identLength rest with
    | zero => rfl
    | succ n =>
        have short : n + 1 ≤ rest.length := found ▸ Literal.plain_ident_length_le rest
        simp only [List.take_append_of_le_length short]
  · rw [ident_length_plain fun rest same => raw ⟨rest, same⟩, ident_length_plain, Literal.ident_length_stops stops]
    intro rest shape
    rcases text with _ | ⟨c, _ | ⟨d, text⟩⟩
    · exact parted.not_head (c := 'r') (by decide) _ shape
    · obtain ⟨-, shape⟩ := List.cons.inj shape
      exact parted.not_head (c := '#') (by decide) _ shape
    · obtain ⟨rfl, rfl, -⟩ : c = 'r' ∧ d = '#' ∧ text ++ back = rest := by simpa using shape
      exact raw ⟨text, rfl⟩

theorem opens_lifetime (parted : Parted back) (text : List Char) : opensLifetime (text ++ back) = opensLifetime text := by
  have short := ident_length_le text
  rw [opensLifetime, opensLifetime, parted.ident_length, List.drop_append_of_le_length short,
    parted.opening (m := ['r', '#']) (each_of_all (by decide))]
  cases behind : text.drop (identLength text) with
  | cons c rest =>
      by_cases quote : c = '\''
      · rw [quote]
        rfl
      · by_cases sign : c = '#'
        · rw [sign]
          rfl
        · simp [quote, sign]
  | nil =>
      cases back with
      | nil => rfl
      | cons c back =>
          have quote : c ≠ '\'' := fun same => parted.not_head (c := '\'') (by decide) back (by rw [same])
          have sign : c ≠ '#' := fun same => parted.not_head (c := '#') (by decide) back (by rw [same])
          simp [quote, sign]

/-- A leaf that is no literal is the same with something behind the text. -/
theorem plain_leaf (parted : Parted back) (some : text ≠ []) : plainLeaf? (text ++ back) = plainLeaf? text := by
  cases text with
  | nil => exact absurd rfl some
  | cons c text =>
      have whole : identLength (c :: (text ++ back)) = identLength (c :: text) := parted.ident_length (c :: text)
      have punct : startsPunct (c :: (text ++ back)) = startsPunct (c :: text) := parted.starts_punct (c :: text)
      have strings : stringOpenings.any (·.isPrefixOf (c :: (text ++ back))) = stringOpenings.any (·.isPrefixOf (c :: text)) :=
        parted.string_openings (c :: text)
      have front : ∀ (text : List Char) (opens : identLength (text ++ back) ≠ 0) (opens' : identLength text ≠ 0),
          Ident.front (text ++ back) opens = Ident.front text opens' := by
        intro text opens opens'
        ext1
        simp only [Ident.front, parted.ident_length, List.take_append_of_le_length (ident_length_le text)]
      simp only [List.cons_append, plainLeaf?, punct, strings, parted.opens_lifetime text, parted.starts_punct text]
      by_cases quote : c = '\''
      · rw [if_pos quote, if_pos quote]
        by_cases none : identLength text = 0
        · rw [dif_neg (by simpa [parted.ident_length] using none), dif_neg (by simpa using none)]
        · rw [dif_pos (by simpa [parted.ident_length] using none), dif_pos none, front _ _ none, parted.ident_length]
      · rw [if_neg quote, if_neg quote]
        by_cases none : identLength (c :: text) = 0
        · rw [dif_neg (by simpa [whole] using none), dif_neg (by simpa using none)]
        · have word : ∀ opens, Ident.front (c :: (text ++ back)) opens = Ident.front (c :: text) none :=
            fun opens => front (c :: text) opens none
          rw [dif_pos (by simpa [whole] using none), dif_pos none, word, whole]

end Parted

/-! Literals. -/

/-- What announces a string begins a quote or one of the openings that no word has. -/
theorem announced_of_string {n : Nat} (found : Literal.stringLength text = some n) :
    text.head? = some '"' ∨ stringOpenings.any (·.isPrefixOf text) = true := by
  -- behind the letters of a raw string stands a quote, or a number sign and then either of the two
  have raw : ∀ (plain : Char → Bool) (rest : List Char), (Literal.rawLength plain rest).isSome →
      ∃ more, rest = '"' :: more ∨ rest = '#' :: '"' :: more ∨ rest = '#' :: '#' :: more := by
    intro plain rest read
    obtain ⟨m, read⟩ := Option.isSome_iff_exists.mp read
    obtain ⟨hashes, rest, rfl⟩ := Literal.raw_length_shape read
    match hashes with
    | 0 => exact ⟨rest, Or.inl rfl⟩
    | 1 => exact ⟨rest, Or.inr (Or.inl rfl)⟩
    | hashes + 2 => exact ⟨List.replicate hashes '#' ++ '"' :: rest, Or.inr (Or.inr rfl)⟩
  unfold Literal.stringLength at found
  split at found
  · exact Or.inl rfl
  · obtain ⟨more, rfl | rfl | rfl⟩ := raw _ _ (by rw [← Option.isSome_map]; exact Option.isSome_of_eq_some found) <;> exact Or.inr rfl
  · exact Or.inr rfl
  · obtain ⟨more, rfl | rfl | rfl⟩ := raw _ _ (by rw [← Option.isSome_map]; exact Option.isSome_of_eq_some found) <;> exact Or.inr rfl
  · exact Or.inr rfl
  · obtain ⟨more, rfl | rfl | rfl⟩ := raw _ _ (by rw [← Option.isSome_map]; exact Option.isSome_of_eq_some found) <;> exact Or.inr rfl
  · cases found

theorem no_plain_leaf_of_announced
    (announced : text.head? = some '"' ∨ stringOpenings.any (·.isPrefixOf text) = true) : plainLeaf? text = none := by
  rcases announced with first | opens
  · obtain ⟨rest, rfl⟩ := List.head?_eq_some_iff.mp first
    have noWord : identLength ('"' :: rest) = 0 := by
      simp [identLength, Literal.identLength, not_ident_start_of_punct '"' (by decide)]
    simp [plainLeaf?, startsPunct, noWord, show '"' ∉ punctChars by decide]
  · obtain ⟨mark, listed, front⟩ := List.any_eq_true.mp opens
    obtain ⟨rest, rfl⟩ := List.isPrefixOf_iff_prefix.mp front
    have known : ∀ mark ∈ stringOpenings, ∃ c more, mark = c :: more ∧ c ≠ '\'' ∧ c ∉ punctChars := by
      have table : ∀ mark ∈ stringOpenings, mark.head?.any (fun c => c != '\'' && !punctChars.contains c) = true := by decide
      intro mark listed
      obtain ⟨c, first, plain⟩ := (Option.any_eq_true _ _).mp (table mark listed)
      obtain ⟨more, rfl⟩ := List.head?_eq_some_iff.mp first
      exact ⟨c, more, rfl, by simpa using plain⟩
    obtain ⟨c, more, rfl, quote, plain⟩ := known mark listed
    rw [List.cons_append] at opens ⊢
    rw [plainLeaf?, if_neg quote, if_neg (by simp [startsPunct, plain]), if_pos opens]

/-- A single character in apostrophes. -/
theorem quoted_length_plain {c : Char} (escape : c ≠ '\\') (kind : Literal.Cooked) (rest : List Char) :
    kind.quotedLength (c :: rest) = if rest.head? = some '\'' then some 2 else none := by
  unfold Literal.Cooked.quotedLength
  cases rest with
  | nil => simp
  | cons d rest =>
      by_cases quote : d = '\''
      · subst quote
        simp
      · simp [quote]

theorem ident_start_of_length (some : identLength text ≠ 0) : ∃ c rest, text = c :: rest ∧ Text.isIdentStart c = true := by
  unfold identLength at some
  split at some
  · next rest => exact ⟨'r', '#' :: rest, rfl, by decide +kernel⟩
  · cases text with
    | nil => exact absurd rfl some
    | cons c rest =>
        refine ⟨c, rest, rfl, ?_⟩
        by_contra closed
        exact some (by simp [Literal.identLength, closed])

/-- Where no literal begins but another leaf does, no literal begins with other text behind. -/
theorem no_literal_elsewhere {near : List Char} (parted : Parted near) (parted' : Parted back)
    (unread : Literal.length? (text ++ near) = none) (leaf : (plainLeaf? text).isSome) :
    Literal.length? (text ++ back) = none := by
  have kinds : Literal.quotedLength (text ++ near) = none ∧ Literal.numberLength (text ++ near) = none := by
    unfold Literal.length? at unread
    split at unread
    · cases unread
    · split at unread
      · cases unread
      · exact ⟨‹_›, unread⟩
  have begun : text ≠ [] := by
    rintro rfl
    cases leaf
  have string : Literal.stringLength (text ++ back) = none := by
    by_contra found
    obtain ⟨n, found⟩ := Option.ne_none_iff_exists'.mp found
    have announced := announced_of_string found
    rw [parted'.string_openings, List.head?_append_of_ne_nil _ begun] at announced
    rw [no_plain_leaf_of_announced announced] at leaf
    cases leaf
  have quoted : Literal.quotedLength (text ++ back) = none := by
    by_contra found
    obtain ⟨n, found⟩ := Option.ne_none_iff_exists'.mp found
    unfold Literal.quotedLength at found
    split at found
    · next rest shape =>
        -- the opening of a byte is none of a word
        rcases text with _ | ⟨c, _ | ⟨d, text⟩⟩
        · exact begun rfl
        · exact parted'.not_head (c := '\'') (by decide) rest (List.cons.inj shape).2
        · obtain ⟨rfl, rfl, -⟩ : c = 'b' ∧ d = '\'' ∧ text ++ back = rest := by simpa using shape
          rw [no_plain_leaf_of_announced (Or.inr rfl)] at leaf
          cases leaf
    · next rest shape =>
        -- behind the first character of a lifetime there is no apostrophe in the text, and none begins what follows it
        rcases text with _ | ⟨q, text⟩
        · exact begun rfl
        · obtain ⟨rfl, rfl⟩ : q = '\'' ∧ text ++ back = rest := by simpa using shape
          have word : identLength text ≠ 0 := by
            intro noWord
            simp [plainLeaf?, noWord] at leaf
          obtain ⟨c, more, rfl, opens⟩ := ident_start_of_length word
          have escape : c ≠ '\\' := by
            rintro rfl
            revert opens
            decide
          have unquoted := kinds.1
          simp only [List.cons_append, Literal.quotedLength, quoted_length_plain escape] at found unquoted
          cases more with
          | nil =>
              cases back with
              | nil => simp at found
              | cons d back =>
                  have other : d ≠ '\'' := fun same => parted'.not_head (c := '\'') (by decide) back (by rw [same])
                  simp [other] at found
          | cons d more =>
              by_cases quote : d = '\''
              · simp [quote] at unquoted
              · simp [quote] at found
    · cases found
  have number : Literal.numberLength (text ++ back) = none := by
    rw [Literal.number_length_ends parted'.ends, ← Literal.number_length_ends parted.ends, kinds.2]
  rw [Literal.length?, string, quoted, number]

/-- A text with nothing in it that closes a literal, a comment or a line. -/
def Inert (near : List Char) : Prop := ∀ c ∈ near, c ∉ ['"', '#', '\'', '/', '\n']

/-- A literal that is read off a text and what stands behind it is read off the text, if that does not close one. -/
theorem literal_elsewhere {near : List Char} (parted : Parted near) (inert : Inert near) {n : Nat}
    (found : Literal.length? (text ++ near) = some n) :
    n ≤ text.length ∧ ∀ back, Parted back → Literal.length? (text ++ back) = some n := by
  rcases Literal.length_cases found with ⟨front, rest, shape, stem, rfl⟩ | number
  · obtain ⟨suffix, rfl, rfl⟩ : ∃ suffix, text = front ++ suffix ∧ rest = suffix ++ near := by
      rcases List.append_eq_append_iff.mp shape with ⟨more, rfl, behind⟩ | ⟨suffix, same, behind⟩
      · cases more with
        | nil => exact ⟨[], by simp, by simpa using behind.symm⟩
        | cons d more =>
            -- the last character of the literal itself would stand behind the text
            obtain ⟨c, last, quote⟩ := stem.last
            rw [List.getLast?_append_of_ne_nil _ (List.cons_ne_nil d more)] at last
            have closes : c ∈ near := behind ▸ List.mem_append_left _ (List.mem_of_getLast? last)
            exact absurd (List.mem_append_left ['/', '\n'] quote) (inert c closes)
      · exact ⟨suffix, same, behind⟩
    rw [Literal.ident_length_stops parted.ends.stops]
    refine ⟨?_, fun back parted' => ?_⟩
    · have short := Literal.plain_ident_length_le suffix
      rw [List.length_append]
      omega
    · rw [List.append_assoc, stem.length, Literal.ident_length_stops parted'.ends.stops]
  · rw [Literal.number_length_ends parted.ends] at number
    refine ⟨Literal.number_length_le number, fun back parted' => ?_⟩
    obtain ⟨c, rest, rfl, digit⟩ := Literal.digit_of_number number
    obtain ⟨string, quoted⟩ := Literal.only_number digit (rest ++ back)
    rw [← Literal.number_length_ends parted'.ends] at number
    rw [List.cons_append] at number ⊢
    rw [Literal.length?, string, quoted, number]

theorem plain_leaf_le {l : Lexeme} {n : Nat} (found : plainLeaf? text = some (l, n)) : n ≤ text.length := by
  cases text with
  | nil => cases found
  | cons c rest =>
      have word := ident_length_le (c :: rest)
      have behind := ident_length_le rest
      simp only [plainLeaf?] at found
      split_ifs at found <;> cases found
      · exact Nat.succ_le_succ behind
      · exact Nat.succ_pos _
      · exact word

/-- A leaf that is read off a text and what stands behind it is read off the text. -/
theorem leaf_elsewhere {near : List Char} (parted : Parted near) (inert : Inert near) (begun : text ≠ []) {l : Lexeme} {n : Nat}
    (found : leaf? (text ++ near) = some (l, n)) :
    n ≤ text.length ∧ ∀ back, Parted back → leaf? (text ++ back) = some (l, n) := by
  unfold leaf? at found
  split at found
  · next m literal =>
      obtain ⟨rfl, rfl⟩ := Prod.mk.inj (Option.some.inj found)
      obtain ⟨short, elsewhere⟩ := literal_elsewhere parted inert literal
      refine ⟨short, fun back parted' => ?_⟩
      have again := elsewhere back parted'
      unfold leaf?
      split
      · next m' found' =>
          obtain rfl : m' = m := Option.some.inj (found'.symm.trans again)
          have same : Literal.front (text ++ back) found' = Literal.front (text ++ near) literal := by
            ext1
            simp only [Literal.front, List.take_append_of_le_length short]
          rw [same]
      · next unread =>
          rw [again] at unread
          cases unread
  · next unread =>
      rw [parted.plain_leaf begun] at found
      refine ⟨plain_leaf_le found, fun back parted' => ?_⟩
      rw [leaf_of_no_literal (no_literal_elsewhere parted parted' unread (by rw [found]; rfl)), parted'.plain_leaf begun, found]

/-! Comments. -/

/-- A line that ends in a text ends there whatever stands behind the text; else it goes on to the next line break. -/
theorem line_length_within (ends : '\n' ∈ text) :
    lineLength text < text.length ∧ ∀ back, lineLength (text ++ back) = lineLength text := by
  fun_induction lineLength text with
  | case1 => cases ends
  | case2 rest => exact ⟨Nat.succ_pos _, fun _ => rfl⟩
  | case3 rest => exact ⟨Nat.succ_pos _, fun _ => rfl⟩
  | case4 c rest feed pair ih =>
      have later : '\n' ∈ rest := (List.mem_cons.mp ends).resolve_left fun same => feed same.symm
      obtain ⟨less, same⟩ := ih later
      refine ⟨Nat.succ_lt_succ less, fun back => ?_⟩
      rw [List.cons_append, lineLength, same back]
      · exact feed
      · intro more returned shape
        cases rest with
        | nil => cases later
        | cons d rest => exact pair rest returned (by rw [(List.cons.inj shape).1])

theorem line_length_whole (goes : '\n' ∉ text) : lineLength text = text.length := by
  fun_induction lineLength text with
  | case1 => rfl
  | case2 rest => exact absurd List.mem_cons_self goes
  | case3 rest => exact absurd (List.mem_cons_of_mem _ List.mem_cons_self) goes
  | case4 c rest feed pair ih => rw [ih fun member => goes (List.mem_cons_of_mem c member), List.length_cons]

/-- A character that begins no pair of a comment is passed over. -/
theorem block_length_step {depth : Nat} {c : Char} {rest : List Char} (opens : ∀ more, c = '/' → rest ≠ '*' :: more)
    (closes : ∀ more, c = '*' → rest ≠ '/' :: more) :
    blockCommentLength depth (c :: rest) = (blockCommentLength depth rest).map (· + 1) := by
  rw [blockCommentLength]
  · exact opens
  · exact fun more _ => closes more
  · exact fun _ more _ => closes more

theorem block_length_open {depth : Nat} (goes : '/' ∉ text) : blockCommentLength depth text = none := by
  fun_induction blockCommentLength depth text with
  | case1 => rfl
  | case2 | case3 | case4 => simp at goes
  | case5 depth c rest _ _ _ ih =>
      rw [ih fun member => goes (List.mem_cons_of_mem c member)]
      rfl

/-- A block comment that is closed is closed in the text. -/
theorem block_length_elsewhere {near : List Char} (parted : Parted near) (inert : Inert near) :
    ∀ (text : List Char) {depth m : Nat}, blockCommentLength depth (text ++ near) = some m →
      m ≤ text.length ∧ ∀ back, Parted back → blockCommentLength depth (text ++ back) = some m := by
  have unclosed : ∀ depth, blockCommentLength depth near = none := fun depth =>
    block_length_open fun slash => inert '/' slash (by decide)
  -- one character and what parts it from the rest are no pair
  have alone : ∀ {back : List Char}, Parted back → ∀ (c : Char) (depth : Nat),
      blockCommentLength depth (c :: back) = (blockCommentLength depth back).map (· + 1) := fun parted c depth =>
    block_length_step (fun more _ => parted.not_head (by decide) more) fun more _ => parted.not_head (by decide) more
  intro text
  induction text using List.twoStepInduction with
  | nil =>
      intro depth m found
      rw [List.nil_append, unclosed] at found
      cases found
  | singleton c =>
      intro depth m found
      rw [List.singleton_append, alone parted, unclosed] at found
      cases found
  | cons_cons c d text inner ih =>
      intro depth m found
      simp only [List.cons_append] at found ⊢
      by_cases opens : c = '/' ∧ d = '*'
      · obtain ⟨rfl, rfl⟩ := opens
        simp only [blockCommentLength] at found ⊢
        obtain ⟨k, closed, rfl⟩ := Option.map_eq_some_iff.mp found
        obtain ⟨short, elsewhere⟩ := inner closed
        exact ⟨Nat.add_le_add_right short 2, fun back parted' => by rw [elsewhere back parted', Option.map_some]⟩
      · by_cases closes : c = '*' ∧ d = '/'
        · obtain ⟨rfl, rfl⟩ := closes
          cases depth with
          | zero =>
              obtain rfl : 2 = m := Option.some.inj found
              exact ⟨Nat.succ_le_succ (Nat.succ_le_succ (Nat.zero_le _)), fun _ _ => rfl⟩
          | succ depth =>
              simp only [blockCommentLength] at found ⊢
              obtain ⟨k, closed, rfl⟩ := Option.map_eq_some_iff.mp found
              obtain ⟨short, elsewhere⟩ := inner closed
              exact ⟨Nat.add_le_add_right short 2, fun back parted' => by rw [elsewhere back parted', Option.map_some]⟩
        · have step : ∀ rest, blockCommentLength depth (c :: d :: rest) = (blockCommentLength depth (d :: rest)).map (· + 1) := by
            refine fun rest => block_length_step (fun more slash shape => opens ⟨slash, ?_⟩) fun more star shape => closes ⟨star, ?_⟩
            · exact (List.cons.inj shape).1
            · exact (List.cons.inj shape).1
          rw [step] at found
          obtain ⟨k, closed, rfl⟩ := Option.map_eq_some_iff.mp found
          obtain ⟨short, elsewhere⟩ := ih d closed
          refine ⟨Nat.succ_le_succ short, fun back parted' => ?_⟩
          rw [step, ← List.cons_append, elsewhere back parted', Option.map_some]

/-- What the documentation in a comment stands for, and the length of the comment. -/
def DocComment.told? (doc : DocComment) : Option (List Lexeme × Nat) :=
  if returnsPaired doc.body then some (doc.lexemes, doc.length) else none

/-- What a comment on the rest of a line stands for, by what is behind its slashes. -/
def lineComment? (rest : List Char) : Option (List Lexeme × Nat) :=
  match rest with
  | '!' :: more => (lineDoc true more).told?
  | '/' :: '/' :: _ => some ([], lineLength rest + 2)
  | '/' :: more => (lineDoc false more).told?
  | _ => some ([], lineLength rest + 2)

/-- What a comment up to its closing stands for, by what is behind its opening. -/
def blockComment? (rest : List Char) : Option (List Lexeme × Nat) :=
  match rest with
  | '!' :: more => (blockDoc? true more).bind DocComment.told?
  | '*' :: '/' :: _ => (blockCommentLength 0 rest).map fun n => ([], n + 2)
  | '*' :: '*' :: _ => (blockCommentLength 0 rest).map fun n => ([], n + 2)
  | '*' :: more => (blockDoc? false more).bind DocComment.told?
  | _ => (blockCommentLength 0 rest).map fun n => ([], n + 2)

/-- What the comment at the front of a text stands for, and its length. -/
def comment? (text : List Char) : Option (List Lexeme × Nat) :=
  match text with
  | '/' :: '/' :: rest => lineComment? rest
  | '/' :: '*' :: rest => blockComment? rest
  | _ => none

/-- What a comment stands for: the documentation in it, or nothing, if it is one that is passed over. -/
def heard? (doc : Option DocComment) (length : Nat) : Option (List Lexeme × Nat) :=
  match doc with
  | some doc => some (doc.lexemes, doc.length)
  | none => if length = 0 then none else some ([], length)

theorem told_eq (doc : DocComment) : doc.told? = heard? (if returnsPaired doc.body then some doc else none) 0 := by
  unfold DocComment.told?
  split <;> rfl

theorem line_comment_eq (rest : List Char) :
    lineComment? rest = heard? (docComment? ('/' :: '/' :: rest)) (commentLength ('/' :: '/' :: rest)) := by
  unfold lineComment?
  split
  · rw [told_eq]
    rfl
  · rfl
  · next more other =>
      rw [told_eq]
      simp [docComment?, commentLength]
  · next bang slashes slash =>
      cases rest with
      | nil => rfl
      | cons c more =>
          have noBang : c ≠ '!' := fun same => bang more (by rw [same])
          have noSlash : c ≠ '/' := fun same => slash more (by rw [same])
          simp [docComment?, commentLength, heard?, noBang, noSlash]

theorem block_comment_eq (rest : List Char) :
    blockComment? rest = heard? (docComment? ('/' :: '*' :: rest)) (commentLength ('/' :: '*' :: rest)) := by
  have plain : ∀ found : Option Nat, found.map (fun n => (([] : List Lexeme), n + 2)) = heard? none ((found.map (· + 2)).getD 0) := by
    intro found
    cases found <;> rfl
  have doc : ∀ found : Option DocComment, found.bind DocComment.told?
      = heard? (match found with | some doc => if returnsPaired doc.body then some doc else none | none => none) 0 := by
    intro found
    cases found with
    | none => rfl
    | some doc => exact told_eq doc
  unfold blockComment?
  split
  · rw [doc]
    rfl
  · rw [plain]
    rfl
  · rw [plain]
    rfl
  · next more slash star =>
      rw [doc]
      simp only [docComment?, commentLength]
      rfl
  · next bang closing stars star =>
      rw [plain]
      cases rest with
      | nil => rfl
      | cons c more =>
          have noBang : c ≠ '!' := fun same => bang more (by rw [same])
          have noStar : c ≠ '*' := fun same => star more (by rw [same])
          simp [docComment?, commentLength, noBang, noStar]

theorem comment_eq (starts : startsComment text = true) : comment? text = heard? (docComment? text) (commentLength text) := by
  unfold startsComment at starts
  split at starts
  · exact line_comment_eq _
  · exact block_comment_eq _
  · cases starts

theorem line_comment_length {rest : List Char} {lexemes : List Lexeme} {n : Nat} (found : lineComment? rest = some (lexemes, n)) :
    n = lineLength rest + 2 := by
  have told : ∀ (inner : Bool) (c : Char) (more : List Char), c ≠ '\n' → c ≠ '\r' → (lineDoc inner more).told? = some (lexemes, n) →
      n = lineLength (c :: more) + 2 := by
    intro inner c more feed returned found
    unfold DocComment.told? at found
    split_ifs at found
    cases found
    change lineLength more + 3 = _
    rw [lineLength]
    · exact feed
    · exact fun _ same => absurd same returned
  unfold lineComment? at found
  split at found
  · exact told true _ _ (by decide) (by decide) found
  · cases found
    rfl
  · exact told false _ _ (by decide) (by decide) found
  · cases found
    rfl

theorem line_comment_within {rest : List Char} (ends : '\n' ∈ rest) (back : List Char) :
    lineComment? (rest ++ back) = lineComment? rest := by
  have doc : ∀ (inner : Bool) {more : List Char}, '\n' ∈ more → lineDoc inner (more ++ back) = lineDoc inner more := by
    intro inner more ends
    obtain ⟨less, same⟩ := line_length_within ends
    simp only [lineDoc, same back, List.take_append_of_le_length (Nat.le_of_lt less)]
  have length := (line_length_within ends).2 back
  rcases rest with _ | ⟨c, rest⟩
  · cases ends
  have behind : c ≠ '\n' → '\n' ∈ rest := fun feed => (List.mem_cons.mp ends).resolve_left fun same => feed same.symm
  by_cases bang : c = '!'
  · subst bang
    exact congrArg DocComment.told? (doc true (behind (by decide)))
  by_cases slash : c = '/'
  · subst slash
    rcases rest with _ | ⟨d, rest⟩
    · cases behind (by decide)
    by_cases slash : d = '/'
    · subst slash
      simp only [List.cons_append] at length ⊢
      simp only [lineComment?, length]
    · have one : ∀ more, lineComment? ('/' :: d :: more) = (lineDoc false (d :: more)).told? := by simp [lineComment?, slash]
      rw [List.cons_append, List.cons_append, one, one]
      exact congrArg DocComment.told? (doc false (behind (by decide)))
  · have plain : ∀ more, lineComment? (c :: more) = some ([], lineLength (c :: more) + 2) := by simp [lineComment?, bang, slash]
    rw [List.cons_append] at length ⊢
    rw [plain, plain, length]

theorem block_comment_elsewhere {near rest : List Char} (parted : Parted near) (inert : Inert near) {lexemes : List Lexeme}
    {n : Nat} (found : blockComment? (rest ++ near) = some (lexemes, n)) :
    n ≤ rest.length + 2 ∧ ∀ back, Parted back → blockComment? (rest ++ back) = some (lexemes, n) := by
  have plain : ∀ (rest : List Char), (blockCommentLength 0 (rest ++ near)).map (fun n => (([] : List Lexeme), n + 2)) = some (lexemes, n) →
      n ≤ rest.length + 2 ∧ ∀ back, Parted back → (blockCommentLength 0 (rest ++ back)).map (fun n => (([] : List Lexeme), n + 2)) = some (lexemes, n) := by
    intro rest found
    obtain ⟨m, closed, same⟩ := Option.map_eq_some_iff.mp found
    obtain ⟨short, elsewhere⟩ := block_length_elsewhere parted inert rest closed
    cases same
    exact ⟨Nat.add_le_add_right short 2, fun back parted' => by rw [elsewhere back parted', Option.map_some]⟩
  have told : ∀ (inner : Bool) (rest : List Char), (blockDoc? inner (rest ++ near)).bind DocComment.told? = some (lexemes, n) →
      n ≤ rest.length + 3 ∧ ∀ back, Parted back → (blockDoc? inner (rest ++ back)).bind DocComment.told? = some (lexemes, n) := by
    intro inner rest found
    obtain ⟨doc, made, told⟩ := Option.bind_eq_some_iff.mp found
    obtain ⟨m, closed, rfl⟩ := Option.map_eq_some_iff.mp made
    obtain ⟨short, elsewhere⟩ := block_length_elsewhere parted inert rest closed
    have same : ∀ back, Parted back → blockDoc? inner (rest ++ back) = blockDoc? inner (rest ++ near) := by
      intro back parted'
      have body : ∀ back : List Char, (rest ++ back).take (m - 2) = rest.take (m - 2) := fun back =>
        List.take_append_of_le_length (Nat.le_trans (Nat.sub_le m 2) short)
      simp only [blockDoc?, elsewhere back parted', closed, Option.map_some, body]
    refine ⟨?_, fun back parted' => by rw [same back parted', found]⟩
    unfold DocComment.told? at told
    split_ifs at told
    cases told
    exact Nat.add_le_add_right short 3
  have edge : ∀ {back : List Char}, Parted back → ∀ c, back.head? = some c → c ≠ '!' ∧ c ≠ '*' ∧ c ≠ '/' := by
    have table : ∀ c ∈ [' ', ')', ']'], c ≠ '!' ∧ c ≠ '*' ∧ c ≠ '/' := each_of_all (by decide)
    intro back parted c first
    exact table c (parted c first)
  rcases rest with _ | ⟨c, rest⟩
  · have bare : ∀ back, Parted back → blockComment? back = (blockCommentLength 0 back).map fun n => ([], n + 2) := by
      intro back parted'
      cases back with
      | nil => rfl
      | cons c back => simp [blockComment?, (edge parted' c rfl).1, (edge parted' c rfl).2.1]
    rw [List.nil_append, bare near parted] at found
    obtain ⟨short, elsewhere⟩ := plain [] found
    exact ⟨short, fun back parted' => by rw [List.nil_append, bare back parted', ← elsewhere back parted', List.nil_append]⟩
  by_cases bang : c = '!'
  · subst bang
    exact told true rest found
  by_cases star : c = '*'
  · subst star
    rcases rest with _ | ⟨d, rest⟩
    · have one : ∀ back, Parted back → blockComment? ('*' :: back) = (blockDoc? false back).bind DocComment.told? := by
        intro back parted'
        cases back with
        | nil => rfl
        | cons c back => simp [blockComment?, (edge parted' c rfl).2.1, (edge parted' c rfl).2.2]
      rw [List.singleton_append, one near parted] at found
      obtain ⟨short, elsewhere⟩ := told false [] found
      exact ⟨short, fun back parted' => by rw [List.singleton_append, one back parted', ← elsewhere back parted', List.nil_append]⟩
    by_cases pair : d = '/' ∨ d = '*'
    · have two : ∀ more, blockComment? ('*' :: d :: more) = (blockCommentLength 0 ('*' :: d :: more)).map fun n => ([], n + 2) := by
        rcases pair with rfl | rfl <;> exact fun _ => rfl
      simp only [List.cons_append, two] at found ⊢
      exact plain ('*' :: d :: rest) found
    · obtain ⟨slash, star⟩ := not_or.mp pair
      have one : ∀ more, blockComment? ('*' :: d :: more) = (blockDoc? false (d :: more)).bind DocComment.told? := by
        simp [blockComment?, slash, star]
      simp only [List.cons_append, one] at found ⊢
      exact told false (d :: rest) found
  · have other : ∀ more, blockComment? (c :: more) = (blockCommentLength 0 (c :: more)).map fun n => ([], n + 2) := by
      simp [blockComment?, bang, star]
    simp only [List.cons_append, other] at found ⊢
    exact plain (c :: rest) found

end Accessors.Lexer
