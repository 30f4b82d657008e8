import Accessors.Proofs.PartedTexts

/-!
Tokens of a text in a longer one. What the lexer takes off a text in one step it takes there too where other text
stands behind it, unless it is a comment that goes on to the end of the line. So a text that is read up to its end, and
up to a bracket behind it, is read as the same lexemes wherever it stands.
-/

namespace Accessors

namespace Delimiter

theorem opening_inj {d e : Delimiter} (same : d.opening = e.opening) : d = e := by
  cases d <;> cases e <;> first | rfl | cases same

theorem opening_ne_closing (d e : Delimiter) : d.opening ≠ e.closing := by
  cases d <;> cases e <;> decide

end Delimiter

namespace Lexer

variable {text rest back near : List Char} {lexemes : List Lexeme} {n : Nat}

/-! One step. -/

/-- What is taken off a text at once, delimiters apart, and its length: a blank, a comment, or a lexeme. -/
def taken? : List Char → Option (List Lexeme × Nat)
  | [] => none
  | c :: rest =>
      if isGap c then some ([], 1)
      else if startsComment (c :: rest) then comment? (c :: rest)
      else if (Delimiter.ofOpening? c).isSome || (Delimiter.ofClosing? c).isSome then none
      else (leaf? (c :: rest)).map fun found => ([found.1], found.2)

theorem taken_opening (d : Delimiter) (rest : List Char) : taken? (d.opening :: rest) = none := by
  cases d <;> simp [taken?, startsComment, Delimiter.opening, Delimiter.ofOpening?] <;> decide

theorem taken_closing (d : Delimiter) (rest : List Char) : taken? (d.closing :: rest) = none := by
  cases d <;> simp [taken?, startsComment, Delimiter.closing, Delimiter.ofClosing?] <;> decide

theorem starts_comment_cases (starts : startsComment text = true) :
    (∃ rest, text = '/' :: '/' :: rest) ∨ ∃ rest, text = '/' :: '*' :: rest := by
  unfold startsComment at starts
  split at starts
  · exact Or.inl ⟨_, rfl⟩
  · exact Or.inr ⟨_, rfl⟩
  · cases starts

theorem comment_length_pos (found : comment? text = some (lexemes, n)) : 0 < n := by
  have told : ∀ {doc : DocComment}, 0 < doc.length → doc.told? = some (lexemes, n) → 0 < n := by
    intro doc some found
    unfold DocComment.told? at found
    split_ifs at found
    cases found
    exact some
  have block : ∀ {inner : Bool} {rest : List Char}, (blockDoc? inner rest).bind DocComment.told? = some (lexemes, n) → 0 < n := by
    intro inner rest found
    obtain ⟨doc, made, found⟩ := Option.bind_eq_some_iff.mp found
    obtain ⟨m, -, rfl⟩ := Option.map_eq_some_iff.mp made
    exact told (Nat.succ_pos _) found
  have plain : ∀ {length : Option Nat}, length.map (fun n => (([] : List Lexeme), n + 2)) = some (lexemes, n) → 0 < n := by
    intro length found
    obtain ⟨m, -, same⟩ := Option.map_eq_some_iff.mp found
    cases same
    exact Nat.succ_pos _
  unfold comment? at found
  split at found
  · rw [line_comment_length found]
    exact Nat.succ_pos _
  · unfold blockComment? at found
    split at found
    · exact block found
    · exact plain found
    · exact plain found
    · exact block found
    · exact plain found
  · cases found

/-- A blank, or a plain comment, goes before the blanks and comments behind it. -/
theorem takes_passed (some : 0 < n) (step : ∀ most, gapLength (most + 1) text = gapLength most (text.drop n) + n) :
    Takes text [] (text.drop n) := by
  intro most pos opened done enough
  obtain ⟨most, rfl⟩ := Nat.exists_eq_succ_of_ne_zero (Nat.ne_of_gt (Nat.lt_of_le_of_lt (Nat.zero_le _) enough))
  refine ⟨[], most + 1, pos.after (text.take n), rfl, ?_, ?_⟩
  · rw [List.length_drop]
    omega
  · have fewer : (text.drop n).length ≤ most := by
      rw [List.length_drop]
      omega
    have gap : gapLength (most + 1) text = n + gapLength (most + 1) (text.drop n) := by
      rw [step, ← gap_length_stable fewer, Nat.add_comm]
    simp only [tokensFrom, gap, List.take_add, Pos.after_append, ← List.drop_drop]
    rfl

/-- A comment that documents something is not passed over. -/
theorem length_of_documented (starts : startsComment text = true) (documented : (docComment? text).isSome = true) :
    commentLength text = 0 := by
  rcases starts_comment_cases starts with ⟨rest, rfl⟩ | ⟨rest, rfl⟩
  · rcases rest with _ | ⟨c, rest⟩
    · cases documented
    by_cases bang : c = '!'
    · rw [bang]
      rfl
    by_cases slash : c = '/'
    · subst slash
      rcases rest with _ | ⟨d, rest⟩
      · rfl
      by_cases slash : d = '/'
      · subst slash
        cases documented
      · simp [commentLength, slash]
    · simp [docComment?, bang, slash] at documented
  · rcases rest with _ | ⟨c, rest⟩
    · cases documented
    by_cases bang : c = '!'
    · rw [bang]
      rfl
    by_cases star : c = '*'
    · subst star
      rcases rest with _ | ⟨d, rest⟩
      · rfl
      by_cases closing : d = '/' ∨ d = '*'
      · rcases closing with rfl | rfl <;> cases documented
      · obtain ⟨slash, star⟩ := not_or.mp closing
        simp [commentLength, slash, star]
    · simp [docComment?, bang, star] at documented

theorem takes_documented {c : Char} {doc : DocComment} (solid : isGap c = false) (documented : docComment? (c :: text) = some doc)
    (some : 0 < doc.length) (starts : startsComment (c :: text) = true) :
    Takes (c :: text) doc.lexemes ((c :: text).drop doc.length) := by
  have alone := length_of_documented starts (by rw [documented]; rfl)
  intro most pos opened done enough
  obtain ⟨most, rfl⟩ := Nat.exists_eq_succ_of_ne_zero (Nat.ne_of_gt (Nat.lt_of_le_of_lt (Nat.zero_le _) enough))
  have gap : gapLength (most + 1) (c :: text) = 0 := by simp [gapLength, solid, alone]
  refine ⟨doc.lexemes.map (⟨·, pos⟩), most, pos.after ((c :: text).take doc.length), by simp [Function.comp_def], ?_, ?_⟩
  · simp only [List.length_drop, List.length_cons] at enough ⊢
    omega
  · simp only [tokensFrom, gap, List.drop_zero, List.take_zero, documented]
    rfl

theorem leaf_length_pos {l : Lexeme} (found : leaf? text = some (l, n)) : 0 < n := by
  cases text with
  | nil => cases found
  | cons c rest =>
      obtain ⟨-, first, -⟩ := sound_of_leaf found
      rw [(text_of_leaf found).1] at first
      rw [Nat.pos_iff_ne_zero]
      rintro rfl
      cases first

theorem takes_taken (found : taken? text = some (lexemes, n)) : 0 < n ∧ Takes text lexemes (text.drop n) := by
  cases text with
  | nil => cases found
  | cons c rest =>
      simp only [taken?] at found
      split_ifs at found with blank comment delimiter
      · cases found
        exact ⟨Nat.one_pos, takes_passed Nat.one_pos fun most => by simp [gapLength, blank]⟩
      · have solid : isGap c = false := by simpa using blank
        have some := comment_length_pos found
        rw [comment_eq comment] at found
        cases documented : docComment? (c :: rest) with
        | some doc =>
            rw [documented] at found
            cases found
            exact ⟨some, takes_documented solid documented some comment⟩
        | none =>
            rw [documented] at found
            simp only [heard?] at found
            split_ifs at found with length
            cases found
            refine ⟨some, takes_passed some fun most => ?_⟩
            obtain ⟨m, length⟩ := Nat.exists_eq_succ_of_ne_zero length
            simp [gapLength, solid, length]
      · obtain ⟨⟨l, m⟩, leaf, same⟩ := Option.map_eq_some_iff.mp found
        cases same
        have some := leaf_length_pos leaf
        refine ⟨some, ?_⟩
        simp only [Bool.or_eq_true, not_or, Bool.not_eq_true, Option.isSome_eq_false_iff, Option.isNone_iff_eq_none] at delimiter
        intro most pos opened done enough
        obtain ⟨most, rfl⟩ := Nat.exists_eq_succ_of_ne_zero (Nat.ne_of_gt (Nat.lt_of_le_of_lt (Nat.zero_le _) enough))
        refine ⟨[⟨l, pos⟩], most, pos.after ((c :: rest).take m), rfl, ?_, ?_⟩
        · simp only [List.length_drop, List.length_cons] at enough ⊢
          omega
        · rw [Nat.succ_eq_add_one, tokens_from_solid (by simpa using blank) (by simpa using comment), delimiter.1, delimiter.2]
          simp only [leaf]
          rfl

/-! Reading to the end. -/

/-- The lexer reads a text to its end while some delimiters are open. -/
def Lexes (text : List Char) (opened : List Delimiter) : Prop :=
  ∃ most pos stack done tokens, text.length < most ∧ stack.map Prod.fst = opened
    ∧ tokensFrom most text pos stack done = .ok tokens

/-- A comment that cannot be read stops the lexer. -/
theorem no_leaf_of_comment (starts : startsComment text = true) : leaf? text = none := by
  have slash : ∃ d rest, text = '/' :: d :: rest := by
    rcases starts_comment_cases starts with ⟨rest, rfl⟩ | ⟨rest, rfl⟩
    · exact ⟨'/', rest, rfl⟩
    · exact ⟨'*', rest, rfl⟩
  obtain ⟨d, rest, rfl⟩ := slash
  have noLiteral : Literal.length? ('/' :: d :: rest) = none := by
    by_contra found
    obtain ⟨n, found⟩ := Option.ne_none_iff_exists'.mp found
    obtain ⟨c, more, shape, opener⟩ := Literal.first_char found
    obtain rfl : '/' = c := (List.cons.inj shape).1
    revert opener
    decide
  have noWord : identLength ('/' :: d :: rest) = 0 := by
    simp [identLength, Literal.identLength, not_ident_start_of_punct '/' (by decide)]
  rw [leaf_of_no_literal noLiteral]
  simp [plainLeaf?, startsPunct, starts, noWord, stringOpenings]

theorem stuck_at_comment (starts : startsComment text = true) (unread : comment? text = none) {opened : List Delimiter} :
    ¬ Lexes text opened := by
  rintro ⟨most, pos, stack, done, tokens, enough, -, found⟩
  obtain ⟨most, rfl⟩ := Nat.exists_eq_succ_of_ne_zero (Nat.ne_of_gt (Nat.lt_of_le_of_lt (Nat.zero_le _) enough))
  rw [comment_eq starts] at unread
  have noDoc : docComment? text = none := by
    cases documented : docComment? text with
    | none => rfl
    | some doc => rw [documented] at unread; cases unread
  have noComment : commentLength text = 0 := by
    rw [noDoc] at unread
    simpa [heard?] using unread
  have noLeaf := no_leaf_of_comment starts
  obtain ⟨rest, rfl⟩ : ∃ rest, text = '/' :: rest := by
    rcases starts_comment_cases starts with ⟨rest, rfl⟩ | ⟨rest, rfl⟩ <;> exact ⟨_, rfl⟩
  have gap : gapLength (most + 1) ('/' :: rest) = 0 := by
    simp [gapLength, noComment, show isGap '/' = false by decide]
  simp only [tokensFrom, gap, List.drop_zero, noDoc, noLeaf] at found
  cases found

/-- What a text begins with that is read to its end. -/
theorem Lexes.cases {opened : List Delimiter} (lexes : Lexes text opened) : (text = [] ∧ opened = [])
    ∨ (∃ lexemes n, taken? text = some (lexemes, n) ∧ Lexes (text.drop n) opened)
    ∨ (∃ d rest, text = d.opening :: rest ∧ Lexes rest (d :: opened))
    ∨ ∃ d rest opened', text = d.closing :: rest ∧ opened = d :: opened' ∧ Lexes rest opened' := by
  cases found : taken? text with
  | some taken =>
      obtain ⟨lexemes, n⟩ := taken
      obtain ⟨most, pos, stack, done, tokens, enough, same, ran⟩ := lexes
      obtain ⟨read, most', pos', -, enough', step⟩ := (takes_taken found).2 most pos stack done enough
      exact Or.inr (Or.inl ⟨lexemes, n, rfl, most', pos', stack, _, tokens, enough', same, step ▸ ran⟩)
  | none =>
      cases text with
      | nil =>
          obtain ⟨most, pos, stack, done, tokens, enough, rfl, ran⟩ := lexes
          obtain ⟨most, rfl⟩ := Nat.exists_eq_succ_of_ne_zero (Nat.ne_of_gt enough)
          cases stack with
          | nil => exact Or.inl ⟨rfl, rfl⟩
          | cons first stack => simp [tokensFrom, gapLength, docComment?] at ran
      | cons c rest =>
          simp only [taken?] at found
          split_ifs at found with blank comment delimiter
          · exact absurd lexes (stuck_at_comment comment found)
          · obtain ⟨most, pos, stack, done, tokens, enough, rfl, ran⟩ := lexes
            obtain ⟨most, rfl⟩ := Nat.exists_eq_succ_of_ne_zero (Nat.ne_of_gt (Nat.lt_of_le_of_lt (Nat.zero_le _) enough))
            rw [Nat.succ_eq_add_one, tokens_from_solid (by simpa using blank) (by simpa using comment)] at ran
            split at ran
            · next d opening =>
                obtain rfl := Delimiter.opening_of_ofOpening? opening
                exact Or.inr (Or.inr (Or.inl ⟨d, rest, rfl, most, _, _, _, tokens, Nat.lt_of_succ_lt_succ enough, rfl, ran⟩))
            · next d opening closing =>
                obtain rfl := Delimiter.closing_of_ofClosing? closing
                cases stack with
                | nil => cases ran
                | cons first stack =>
                    simp only at ran
                    split_ifs at ran with same
                    refine Or.inr (Or.inr (Or.inr ⟨d, rest, stack.map Prod.fst, rfl, by rw [← same]; rfl, ?_⟩))
                    exact ⟨most, _, _, _, tokens, Nat.lt_of_succ_lt_succ enough, rfl, ran⟩
            · next opening closing => simp [opening, closing] at delimiter
          · obtain ⟨most, pos, stack, done, tokens, enough, rfl, ran⟩ := lexes
            obtain ⟨most, rfl⟩ := Nat.exists_eq_succ_of_ne_zero (Nat.ne_of_gt (Nat.lt_of_le_of_lt (Nat.zero_le _) enough))
            simp only [Bool.or_eq_true, not_or, Bool.not_eq_true, Option.isSome_eq_false_iff, Option.isNone_iff_eq_none] at delimiter
            rw [Option.map_eq_none_iff] at found
            rw [Nat.succ_eq_add_one, tokens_from_solid (by simpa using blank) (by simpa using comment), delimiter.1, delimiter.2] at ran
            simp only [found] at ran
            cases ran

/-! The same step in front of other text. -/

theorem Inert.no_feed (inert : Inert near) : '\n' ∉ near := fun member => inert '\n' member (by decide)

/-- What is taken off a text is taken off it elsewhere, or it is a comment that goes on to the end. -/
theorem taken_elsewhere (parted : Parted near) (inert : Inert near) (begun : text ≠ [])
    (found : taken? (text ++ near) = some (lexemes, n)) :
    (n ≤ text.length ∧ ∀ back, Parted back → taken? (text ++ back) = some (lexemes, n)) ∨ (text ++ near).length ≤ n := by
  cases text with
  | nil => exact absurd rfl begun
  | cons c text =>
      have comment : ∀ back, Parted back → startsComment (c :: (text ++ back)) = startsComment (c :: text) :=
        fun back parted => parted.starts_comment c text
      simp only [List.cons_append, taken?, comment near parted] at found
      split_ifs at found with blank starts delimiter
      · cases found
        exact Or.inl ⟨Nat.succ_pos _, fun back _ => by simp [taken?, blank]⟩
      · have same : ∀ back, Parted back → taken? (c :: text ++ back) = comment? (c :: (text ++ back)) := by
          intro back parted
          simp [taken?, blank, comment back parted, starts]
        rcases starts_comment_cases starts with ⟨rest, shape⟩ | ⟨rest, shape⟩
        · obtain ⟨rfl, rfl⟩ := List.cons.inj shape
          change lineComment? (rest ++ near) = _ at found
          by_cases ends : '\n' ∈ rest
          · left
            rw [line_comment_within ends] at found
            have less := (line_length_within ends).1
            rw [line_comment_length found]
            refine ⟨Nat.succ_le_succ (Nat.succ_le_succ (Nat.le_of_lt less)), fun back parted => ?_⟩
            rw [same back parted, ← line_comment_length found, ← found, ← line_comment_within ends back]
            rfl
          · right
            have goes : '\n' ∉ rest ++ near := by simp [ends, inert.no_feed]
            rw [line_comment_length found, line_length_whole goes]
            exact Nat.le_refl _
        · obtain ⟨rfl, rfl⟩ := List.cons.inj shape
          obtain ⟨short, elsewhere⟩ := block_comment_elsewhere parted inert found
          refine Or.inl ⟨short, fun back parted => ?_⟩
          rw [same back parted, ← elsewhere back parted]
          rfl
      · obtain ⟨⟨l, m⟩, leaf, shape⟩ := Option.map_eq_some_iff.mp found
        cases shape
        obtain ⟨short, elsewhere⟩ := leaf_elsewhere parted inert begun leaf
        refine Or.inl ⟨short, fun back parted => ?_⟩
        have again : leaf? (c :: (text ++ back)) = some (l, m) := elsewhere back parted
        simp [taken?, blank, comment back parted, starts, delimiter, again]

/-! Many lexemes. -/

/-- The lexer reads lexemes off the front of a text, delimiters with or without their partners. -/
def AdvancesAll (text : List Char) (lexemes : List Lexeme) (rest : List Char) : Prop :=
  ∀ (opened : List (Delimiter × Pos)) (more : List Lexeme), nested (opened.map Prod.fst) (lexemes ++ more) = true →
    ∀ (most : Nat) (pos : Pos) (done : List Token), text.length < most →
      ∃ (most' : Nat) (pos' : Pos) (opened' : List (Delimiter × Pos)) (read : List Token), rest.length < most'
        ∧ nested (opened'.map Prod.fst) more = true ∧ read.map Token.lexeme = lexemes ∧ tokensFrom most text pos opened done = tokensFrom most' rest pos' opened' (read.reverse ++ done)

namespace AdvancesAll

theorem nothing (text : List Char) : AdvancesAll text [] text :=
  fun opened _ partners most pos _ enough => ⟨most, pos, opened, [], enough, partners, rfl, rfl⟩

theorem append {middle : List Char} {first second : List Lexeme} (front : AdvancesAll text first middle)
    (back : AdvancesAll middle second rest) : AdvancesAll text (first ++ second) rest := by
  intro opened more partners most pos done enough
  rw [List.append_assoc] at partners
  obtain ⟨most', pos', opened', read, enough', partners', same, step⟩ := front opened (second ++ more) partners most pos done enough
  obtain ⟨most'', pos'', opened'', read', enough'', partners'', same', step'⟩ :=
    back opened' more partners' most' pos' (read.reverse ++ done) enough'
  refine ⟨most'', pos'', opened'', read ++ read', enough'', partners'', by rw [List.map_append, same, same'], ?_⟩
  rw [step, step', List.reverse_append, List.append_assoc]

theorem of_takes (takes : Takes text lexemes rest)
    (leaves : ∀ opened more, nested opened (lexemes ++ more) = nested opened more) : AdvancesAll text lexemes rest := by
  intro opened more partners most pos done enough
  obtain ⟨read, most', pos', same, enough', step⟩ := takes most pos opened done enough
  exact ⟨most', pos', opened, read, enough', leaves _ more ▸ partners, same, step⟩

theorem of_advances {l : Lexeme} (advances : Advances text l rest) : AdvancesAll text [l] rest := by
  intro opened more partners most pos done enough
  obtain ⟨most', pos', opened', token, enough', partners', rfl, step⟩ := advances opened more partners most pos done enough
  exact ⟨most', pos', opened', [token], enough', partners', rfl, step⟩

/-- What is read to the end are the tokens, if the delimiters have their partners. -/
theorem tokens (advances : AdvancesAll text lexemes []) (partners : nested [] lexemes = true)
    (known : ∀ c, text.head? = some c → c ≠ byteOrderMark) :
    ∃ tokens, Lexer.tokens (String.ofList text) = .ok tokens ∧ tokens.map Token.lexeme = lexemes := by
  obtain ⟨most, pos, opened, read, enough, closed, same, step⟩ :=
    advances [] [] (by simpa using partners) (text.length + 1) Pos.start [] (Nat.lt_succ_self _)
  obtain ⟨most, rfl⟩ := Nat.exists_eq_succ_of_ne_zero (Nat.ne_of_gt enough)
  obtain rfl : opened = [] := by simpa [nested] using closed
  refine ⟨read, ?_, same⟩
  rw [tokens_of_list known, step]
  simp [tokensFrom, gapLength, docComment?]

end AdvancesAll

/-- What has its partners is left by itself. -/
theorem nested_append {opened : List Delimiter} {front : List Lexeme} (partners : nested opened front = true)
    (outer : List Delimiter) (back : List Lexeme) : nested (opened ++ outer) (front ++ back) = nested outer back := by
  fun_induction nested opened front with
  | case1 opened =>
      obtain rfl : opened = [] := by simpa using partners
      rfl
  | case2 opened d rest ih => exact ih partners
  | case3 d rest e opened ih =>
      obtain ⟨same, partners⟩ := Bool.and_eq_true_iff.mp partners
      rw [List.cons_append, List.cons_append, nested, same, Bool.true_and]
      exact ih partners
  | case4 d rest => cases partners
  | case5 opened l rest opening closing ih =>
      rw [List.cons_append, nested]
      · exact ih partners
      · exact opening
      · exact closing

/-- What is taken at once has no delimiter without its partner. -/
theorem nested_taken (found : taken? text = some (lexemes, n)) (opened : List Delimiter) (more : List Lexeme) :
    nested opened (lexemes ++ more) = nested opened more := by
  have doc : ∀ doc : DocComment, nested opened (doc.lexemes ++ more) = nested opened more := by
    intro doc
    cases inner : doc.inner <;> simp [DocComment.lexemes, inner, nested]
  cases text with
  | nil => cases found
  | cons c rest =>
      simp only [taken?] at found
      split_ifs at found with blank comment delimiter
      · cases found
        rfl
      · rw [comment_eq comment] at found
        unfold heard? at found
        split at found
        · cases found
          exact doc _
        · split_ifs at found
          cases found
          rfl
      · obtain ⟨⟨l, m⟩, leaf, same⟩ := Option.map_eq_some_iff.mp found
        cases same
        exact nested_leaf (text_of_leaf leaf).2 opened more

theorem advances_taken (found : taken? text = some (lexemes, n)) : AdvancesAll text lexemes (text.drop n) :=
  .of_takes (takes_taken found).2 (nested_taken found)

/-- A text that is read to its end with something behind it that opens and closes nothing, and in brackets, is read as
the same lexemes wherever it stands. -/
theorem advances_elsewhere (parted : Parted near) (alone : ∀ opened, Lexes near opened → opened = [])
    {text : List Char} {opened : List Delimiter} (ran : Lexes (text ++ near) opened)
    (bracketed : Lexes (text ++ [']']) (opened ++ [.bracket])) :
    ∃ lexemes, nested opened lexemes = true ∧ ∀ back, Parted back → AdvancesAll (text ++ back) lexemes back := by
  have parted' : Parted [']'] := Parted.cons (by decide) []
  have inert' : Inert [']'] := by simp [Inert]
  induction size : text.length using Nat.strong_induction_on generalizing text opened with
  | _ size ih =>
    subst size
    cases text with
    | nil =>
        obtain rfl := alone opened ran
        exact ⟨[], rfl, fun back _ => .nothing back⟩
    | cons c text =>
        rcases bracketed.cases with ⟨none, -⟩ | ⟨lexemes, n, found, behind⟩ | ⟨d, rest, shape, behind⟩ | ⟨d, rest, opened', shape, same, behind⟩
        · cases none
        · rcases taken_elsewhere parted' inert' (List.cons_ne_nil c text) found with ⟨short, elsewhere⟩ | long
          · have some := (takes_taken found).1
            have less : ((c :: text).drop n).length < (c :: text).length := by
              rw [List.length_drop, List.length_cons]
              omega
            have ran' : Lexes ((c :: text).drop n ++ near) opened := by
              have here := elsewhere near parted
              rcases ran.cases with ⟨none, -⟩ | ⟨lexemes', n', found', behind'⟩ | ⟨d, rest, shape, -⟩ | ⟨d, rest, _, shape, -⟩
              · cases none
              · rw [here] at found'
                cases found'
                rwa [List.drop_append_of_le_length short] at behind'
              · rw [shape, taken_opening] at here
                cases here
              · rw [shape, taken_closing] at here
                cases here
            rw [List.drop_append_of_le_length short] at behind
            obtain ⟨more, partners, advances⟩ := ih _ less ran' behind rfl
            refine ⟨lexemes ++ more, by rw [nested_taken found, partners], fun back parted => ?_⟩
            have first := advances_taken (elsewhere back parted)
            rw [List.drop_append_of_le_length short] at first
            exact first.append (advances back parted)
          · -- a comment has taken in the bracket
            rw [List.drop_of_length_le long] at behind
            rcases behind.cases with ⟨-, none⟩ | ⟨_, _, found, -⟩ | ⟨_, _, shape, -⟩ | ⟨_, _, _, shape, -⟩
            · simp at none
            · cases found
            · cases shape
            · cases shape
        · obtain ⟨rfl, rfl⟩ := List.cons.inj shape
          have ran' : Lexes (text ++ near) (d :: opened) := by
            rcases ran.cases with ⟨none, -⟩ | ⟨_, _, found, -⟩ | ⟨e, rest, shape, behind⟩ | ⟨e, rest, _, shape, -⟩
            · cases none
            · rw [List.cons_append, taken_opening] at found
              cases found
            · obtain ⟨same, rfl⟩ := List.cons.inj shape
              obtain rfl := Delimiter.opening_inj same
              exact behind
            · exact absurd (List.cons.inj shape).1 (Delimiter.opening_ne_closing d e)
          obtain ⟨more, partners, advances⟩ := ih _ (Nat.lt_succ_self _) ran' behind rfl
          refine ⟨.opening d :: more, partners, fun back parted => ?_⟩
          exact (AdvancesAll.of_advances (advances_opening d (text ++ back))).append (advances back parted)
        · obtain ⟨rfl, rfl⟩ := List.cons.inj shape
          rcases ran.cases with ⟨none, -⟩ | ⟨_, _, found, -⟩ | ⟨e, rest, shape, -⟩ | ⟨e, rest, opened'', shape, rfl, ran'⟩
          · cases none
          · rw [List.cons_append, taken_closing] at found
            cases found
          · exact absurd (List.cons.inj shape).1.symm (Delimiter.opening_ne_closing e d)
          · obtain ⟨-, rfl⟩ := List.cons.inj shape
            obtain ⟨rfl, rfl⟩ := List.cons.inj same
            obtain ⟨more, partners, advances⟩ := ih _ (Nat.lt_succ_self _) ran' behind rfl
            refine ⟨.closing e :: more, by simpa [nested] using partners, fun back parted => ?_⟩
            exact (AdvancesAll.of_advances (advances_closing e (text ++ back))).append (advances back parted)

/-! Texts that are read in brackets. -/

/-- No comment at the end of a text takes in what stands behind it: in brackets the text is read up to the closing
bracket. -/
def Closed (text : String) : Prop := (tokens ("[" ++ text ++ "]")).isOk = true

instance (text : String) : Decidable (Closed text) := inferInstanceAs (Decidable (_ = true))

theorem lexes_of_tokens (known : ∀ c, text.head? = some c → c ≠ byteOrderMark)
    (lexed : (tokens (String.ofList text)).isOk = true) : Lexes text [] := by
  rw [tokens_of_list known] at lexed
  cases found : tokensFrom (text.length + 1) text Pos.start [] [] with
  | error place => rw [found] at lexed; cases lexed
  | ok read => exact ⟨_, _, [], _, read, Nat.lt_succ_self _, rfl, found⟩

/-- A byte order mark is passed over at the front of a file only. -/
theorem Lexes.known {opened : List Delimiter} (lexes : Lexes text opened) : ∀ c, text.head? = some c → c ≠ byteOrderMark := by
  rintro c first rfl
  obtain ⟨rest, rfl⟩ := List.head?_eq_some_iff.mp first
  rcases lexes.cases with ⟨none, -⟩ | ⟨lexemes, n, found, -⟩ | ⟨d, rest, shape, -⟩ | ⟨d, rest, _, shape, -⟩
  · cases none
  · have plain : isGap byteOrderMark = false ∧ byteOrderMark ≠ '/' := by decide
    simp only [taken?, plain.1, Bool.false_eq_true, if_false, starts_no_comment plain.2] at found
    split_ifs at found
    obtain ⟨⟨l, m⟩, leaf, -⟩ := Option.map_eq_some_iff.mp found
    obtain ⟨sound, first, -⟩ := sound_of_leaf leaf
    exact Lexeme.first_known sound _ first rfl
  · exact absurd (List.cons.inj shape).1 (by cases d <;> decide)
  · exact absurd (List.cons.inj shape).1 (by cases d <;> decide)

/-- A text is read as lexemes wherever it stands, and every delimiter in it has its partner. -/
structure ReadAs (text : List Char) (lexemes : List Lexeme) : Prop where
  partners : nested [] lexemes = true
  advances : ∀ back, Parted back → AdvancesAll (text ++ back) lexemes back

/-- A text that is read to its end, and in brackets, is read as the same lexemes wherever it stands. -/
theorem Closed.read {text near : String} (closed : Closed text) (parted : Parted near.toList)
    (alone : ∀ opened, Lexes near.toList opened → opened = []) (lexed : (tokens (text ++ near)).isOk = true) :
    (∀ c, text.toList.head? = some c → c ≠ byteOrderMark) ∧ ∃ lexemes, ReadAs text.toList lexemes := by
  have bracketed : Lexes (text.toList ++ [']']) [.bracket] := by
    have whole : Lexes (Delimiter.bracket.opening :: (text.toList ++ [']'])) [] := by
      refine lexes_of_tokens (fun c first => ?_) ?_
      · obtain rfl : '[' = c := by simpa [Delimiter.opening] using first
        decide
      · have same : String.ofList (Delimiter.bracket.opening :: (text.toList ++ [']'])) = "[" ++ text ++ "]" := by
          apply String.toList_injective
          simp [Delimiter.opening]
        rw [same]
        exact closed
    rcases whole.cases with ⟨none, -⟩ | ⟨_, _, found, -⟩ | ⟨d, rest, shape, behind⟩ | ⟨d, rest, _, -, none, -⟩
    · cases none
    · rw [taken_opening] at found
      cases found
    · obtain ⟨same, rfl⟩ := List.cons.inj shape
      obtain rfl := Delimiter.opening_inj same
      exact behind
    · cases none
  have known : ∀ back, Parted back → ∀ c, (text.toList ++ back).head? = some c → c ≠ byteOrderMark := by
    have seams : ∀ c ∈ [' ', ')', ']'], c ≠ byteOrderMark := each_of_all (by decide)
    intro back parted c first
    cases shape : text.toList with
    | nil =>
        rw [shape, List.nil_append] at first
        exact seams c (parted c first)
    | cons d rest =>
        rw [shape] at bracketed first
        exact bracketed.known c first
  refine ⟨fun c first => known [] Parted.nil c (by rwa [List.append_nil]), ?_⟩
  have same : String.ofList (text.toList ++ near.toList) = text ++ near := by
    rw [← String.toList_append, String.ofList_toList]
  obtain ⟨lexemes, partners, advances⟩ :=
    advances_elsewhere parted alone (lexes_of_tokens (known _ parted) (by rw [same]; exact lexed)) bracketed
  exact ⟨lexemes, partners, advances⟩

end Lexer

/-! Trees. -/

namespace TokenTree

open Lexer (nested)

/-- What lexemes push, by the trees behind them: trees of their own in front of those, and in front of them what stands
in the groups that they close. -/
theorem push_nested {opened : List Delimiter} {lexemes : List Lexeme} (partners : nested opened lexemes = true) :
    ∃ (front : List (List TokenTree)) (last : List TokenTree), front.length = opened.length ∧ ∀ forest : Forest,
      (lexemes.foldr Forest.push forest).inside :: (lexemes.foldr Forest.push forest).around
        = front ++ (last ++ forest.inside) :: forest.around := by
  have leaf : ∀ {opened : List Delimiter} {lexemes : List Lexeme} (l : Lexeme),
      (∀ forest, Forest.push l forest = ⟨.leaf l :: forest.inside, forest.around⟩) →
      (∃ (front : List (List TokenTree)) (last : List TokenTree), front.length = opened.length ∧ ∀ forest : Forest,
        (lexemes.foldr Forest.push forest).inside :: (lexemes.foldr Forest.push forest).around
          = front ++ (last ++ forest.inside) :: forest.around) →
      ∃ (front : List (List TokenTree)) (last : List TokenTree), front.length = opened.length ∧ ∀ forest : Forest,
        ((l :: lexemes).foldr Forest.push forest).inside :: ((l :: lexemes).foldr Forest.push forest).around
          = front ++ (last ++ forest.inside) :: forest.around := by
    rintro opened lexemes l step ⟨front, last, size, shape⟩
    cases front with
    | nil =>
        refine ⟨[], .leaf l :: last, size, fun forest => ?_⟩
        obtain ⟨inside, around⟩ := List.cons.inj (shape forest)
        simp [step, inside, around]
    | cons trees front =>
        refine ⟨(.leaf l :: trees) :: front, last, size, fun forest => ?_⟩
        obtain ⟨inside, around⟩ := List.cons.inj (shape forest)
        simp [step, inside, around]
  fun_induction nested opened lexemes with
  | case1 opened =>
      obtain rfl : opened = [] := by simpa using partners
      exact ⟨[], [], rfl, fun _ => rfl⟩
  | case2 opened d rest ih =>
      obtain ⟨front, last, size, shape⟩ := ih partners
      match front, size with
      | [trees], size =>
          refine ⟨[], .group d trees :: last, Nat.succ.inj size, fun forest => ?_⟩
          obtain ⟨inside, around⟩ := List.cons.inj (shape forest)
          simp [Forest.push, inside, around]
      | trees :: after :: front, size =>
          refine ⟨(.group d trees :: after) :: front, last, Nat.succ.inj size, fun forest => ?_⟩
          obtain ⟨inside, around⟩ := List.cons.inj (shape forest)
          simp [Forest.push, inside, around]
  | case3 d rest e opened ih =>
      obtain ⟨front, last, size, shape⟩ := ih (Bool.and_eq_true_iff.mp partners).2
      refine ⟨[] :: front, last, congrArg Nat.succ size, fun forest => ?_⟩
      have shape := shape forest
      simp [Forest.push, shape]
  | case4 d rest => cases partners
  | case5 opened l rest one two ih =>
      refine leaf l (fun forest => ?_) (ih partners)
      cases l with
      | opening d => exact absurd rfl (one d)
      | closing d => exact absurd rfl (two d)
      | _ => rfl

/-- Lexemes in which every delimiter has its partner make trees of their own. -/
theorem push_partnered {lexemes : List Lexeme} (partners : nested [] lexemes = true) (forest : Forest) :
    lexemes.foldr Forest.push forest = ⟨ofLexemes lexemes ++ forest.inside, forest.around⟩ := by
  obtain ⟨front, last, size, shape⟩ := push_nested partners
  obtain rfl := List.eq_nil_of_length_eq_zero size
  obtain ⟨alone, -⟩ := List.cons.inj (shape ⟨[], []⟩)
  have own : ofLexemes lexemes = last := by simpa [ofLexemes] using alone
  obtain ⟨inside, around⟩ := List.cons.inj (shape forest)
  rw [own, ← inside, ← around]

theorem of_lexemes_append {front : List Lexeme} (partners : nested [] front = true) (back : List Lexeme) :
    ofLexemes (front ++ back) = ofLexemes front ++ ofLexemes back := by
  rw [ofLexemes, List.foldr_append, push_partnered partners]
  rfl

end TokenTree

end Accessors
