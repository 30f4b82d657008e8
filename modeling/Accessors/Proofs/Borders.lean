import Accessors.Proofs.Yielding

/-!
Parsers at a border. Behind the tokens at hand there is a border: the end of a group, or a pair of braces and then
the end. What a parser reads before the border it reads as well where other braces stand there, whatever is inside
and behind them. This follows from what is so of the parsers that it is put together from, as long as nothing that
they look at tells the two apart.
-/

namespace Accessors.Parsing

/-- What may stand behind the tokens at hand, and the braces that stand there elsewhere. -/
structure Border where
  near : List TokenTree
  far : List TokenTree
  near_end : near = [] ∨ ∃ inside, near = [.group .brace inside]
  far_end : (near = [] ∧ far = []) ∨ ∃ inside more, far = .group .brace inside :: more

namespace Border

variable (s : Border)

/-- The cursor where the other braces stand and something else was read before. -/
def move (under : List Lexeme) (c : Cursor) : Cursor :=
  { c with rest := c.rest.take (c.rest.length - s.near.length) ++ s.far, read := c.read ++ under }

/-- The cursor is before the border, and nothing was passed over. -/
def Before (c : Cursor) : Prop := s.near <:+ c.rest ∧ c.stray = none

/-- A look at the tokens ahead that does not tell what stands at the border. -/
def Blind (look : List TokenTree → Bool) : Prop := ∀ ts, look (ts ++ s.near) = look (ts ++ s.far)

/-- A look that is only satisfied by so many tokens before the border. -/
def Fronts (count : Nat) (look : List TokenTree → Bool) : Prop := ∀ ts, look (ts ++ s.near) = true → count ≤ ts.length

variable {s} {c : Cursor} {ts : List TokenTree} {under : List Lexeme}

theorem move_of_append {t : List TokenTree} (shape : c.rest = t ++ s.near) :
    s.move under c = { c with rest := t ++ s.far, read := c.read ++ under } := by
  simp [move, shape]

theorem near_le_far : s.near.length ≤ s.far.length := by
  rcases s.far_end with ⟨near, far⟩ | ⟨inside, more, far⟩
  · exact Nat.le_of_eq (by rw [near, far])
  · rcases s.near_end with near | ⟨inside', near⟩ <;> simp [near, far]

theorem length_le_move (c : Cursor) : c.rest.length ≤ (s.move under c).rest.length := by
  have less := s.near_le_far
  simp only [move, List.length_append, List.length_take]
  omega

/-! Looks. -/

namespace Blind

variable {look other : List TokenTree → Bool} {count : Nat}

theorem const (b : Bool) : s.Blind fun _ => b := fun _ => rfl

theorem and (first : s.Blind look) (second : s.Blind other) : s.Blind fun t => look t && other t :=
  fun ts => by dsimp only; rw [first ts, second ts]

theorem or (first : s.Blind look) (second : s.Blind other) : s.Blind fun t => look t || other t :=
  fun ts => by dsimp only; rw [first ts, second ts]

theorem not (first : s.Blind look) : s.Blind fun t => !look t :=
  fun ts => by dsimp only; rw [first ts]

/-- A look further ahead, past what is known to stand before the border. -/
theorem past (first : s.Blind look) (front : s.Fronts count look) (second : s.Blind other) :
    s.Blind fun t => look t && other (t.drop count) := by
  intro ts
  dsimp only
  cases seen : look (ts ++ s.near) with
  | false => rw [← first ts, seen, Bool.false_and, Bool.false_and]
  | true =>
      rw [← first ts, seen, List.drop_append_of_le_length (front ts seen), List.drop_append_of_le_length (front ts seen)]
      exact congrArg (true && ·) (second _)

/-- Where the end stands in both places there is nothing to tell. -/
theorem of_brace (braced : ∀ inside more, s.far = .group .brace inside :: more → s.Blind look) : s.Blind look := by
  rcases s.far_end with ⟨near, far⟩ | ⟨inside, more, far⟩
  · intro ts
    rw [near, far]
  · exact braced inside more far

/-- A look at the first tree alone, which is satisfied by leaves only. -/
theorem head {f : TokenTree → Bool} (none : look [] = false) (leaf : ∀ t rest, look (t :: rest) = f t)
    (brace : ∀ inside, f (.group .brace inside) = false) : s.Blind look := by
  refine of_brace fun inside more far ts => ?_
  cases ts with
  | cons t ts => rw [List.cons_append, List.cons_append, leaf, leaf]
  | nil =>
      rw [List.nil_append, List.nil_append, far, leaf, brace]
      rcases s.near_end with near | ⟨inside', near⟩
      · rw [near, none]
      · rw [near, leaf, brace]

end Blind

/-- A look that fails at the border asks for a token before it. -/
theorem Fronts.one {look : List TokenTree → Bool} (none : look s.near = false) : s.Fronts 1 look := by
  intro ts seen
  cases ts with
  | nil =>
      rw [List.nil_append, none] at seen
      cases seen
  | cons t ts => exact Nat.succ_pos _

/-- A look at what follows the next token. -/
theorem Blind.next {look other : List TokenTree → Bool} (first : s.Blind look) (none : look s.near = false)
    (second : s.Blind other) : s.Blind fun t => look t && other (Ahead.next t) := by
  have whole := first.past (Fronts.one none) second
  simpa only [Ahead.next, List.drop_one] using whole

/-! The looks of the grammar. -/

theorem blind_op (chars : List Char) : s.Blind (Ahead.op chars) := by
  refine Blind.of_brace fun inside more far ts => ?_
  induction chars generalizing ts with
  | nil => rfl
  | cons c chars ih =>
      cases ts with
      | nil =>
          rw [List.nil_append, List.nil_append, far]
          rcases s.near_end with near | ⟨inside', near⟩ <;> rw [near] <;> cases chars <;> rfl
      | cons t ts =>
          match t with
          | .leaf (.punct d joint) =>
              cases chars with
              | nil => rfl
              | cons c' chars => exact congrArg (c == d && joint && ·) (ih ts)
          | .leaf (.ident _) | .leaf (.lifetime _) | .leaf (.literal _) | .leaf (.opening _) | .leaf (.closing _)
          | .group _ _ => cases chars <;> rfl

theorem fronts_op (chars : List Char) : s.Fronts chars.length (Ahead.op chars) := by
  intro ts seen
  induction chars generalizing ts with
  | nil => exact Nat.zero_le _
  | cons c chars ih =>
      cases ts with
      | nil =>
          rcases s.near_end with near | ⟨inside', near⟩ <;> rw [List.nil_append, near] at seen <;> cases chars <;> cases seen
      | cons t ts =>
          match t, seen with
          | .leaf (.punct d joint), seen =>
              cases chars with
              | nil => exact Nat.succ_le_succ (Nat.zero_le _)
              | cons c' chars =>
                  have later : Ahead.op (c' :: chars) (ts ++ s.near) = true :=
                    (Bool.and_eq_true_iff.mp (show (c == d && joint && Ahead.op (c' :: chars) (ts ++ s.near)) = true from seen)).2
                  exact Nat.succ_le_succ (ih ts later)
          | .leaf (.ident _), seen | .leaf (.lifetime _), seen | .leaf (.literal _), seen | .leaf (.opening _), seen
          | .leaf (.closing _), seen | .group _ _, seen => cases chars <;> cases seen

theorem blind_word (w : String) : s.Blind (Ahead.word w) :=
  Blind.head (f := fun t => Ahead.word w [t]) rfl (fun t _ => by cases t with | leaf l => cases l <;> rfl | group => rfl)
    fun _ => rfl

theorem blind_ident : s.Blind Ahead.ident :=
  Blind.head (f := fun t => Ahead.ident [t]) rfl (fun t _ => by cases t with | leaf l => cases l <;> rfl | group => rfl)
    fun _ => rfl

theorem blind_anyIdent : s.Blind Ahead.anyIdent :=
  Blind.head (f := fun t => Ahead.anyIdent [t]) rfl
    (fun t _ => by cases t with | leaf l => cases l <;> rfl | group => rfl) fun _ => rfl

theorem blind_lifetime : s.Blind Ahead.lifetime :=
  Blind.head (f := fun t => Ahead.lifetime [t]) rfl
    (fun t _ => by cases t with | leaf l => cases l <;> rfl | group => rfl) fun _ => rfl

theorem blind_textLiteral : s.Blind Ahead.textLiteral :=
  Blind.head (f := fun t => Ahead.textLiteral [t]) rfl
    (fun t _ => by cases t with | leaf l => cases l <;> rfl | group => rfl) fun _ => rfl

theorem blind_opens {d : Delimiter} (other : d ≠ .brace) : s.Blind (Ahead.opens d) :=
  Blind.head (f := fun t => Ahead.opens d [t]) rfl (fun t _ => by cases t <;> rfl)
    fun _ => by cases d <;> first | rfl | exact absurd rfl other

/-- A look that fails at a pair of braces and at the end fails at the border. -/
theorem false_at_near {look : List TokenTree → Bool} (none : look [] = false)
    (brace : ∀ inside, look [.group .brace inside] = false) : look s.near = false := by
  rcases s.near_end with near | ⟨inside, near⟩
  · rw [near, none]
  · rw [near, brace]

theorem blind_literal : s.Blind Ahead.literal := by
  refine Blind.of_brace fun inside more far ts => ?_
  match ts with
  | [] => rcases s.near_end with near | ⟨inside', near⟩ <;> rw [near, far] <;> rfl
  | [t] =>
      rcases s.near_end with near | ⟨inside', near⟩ <;> rw [near, far] <;> cases t with
      | group => rfl
      | leaf l => cases l with
        | punct d joint =>
            by_cases minus : d = '-'
            · subst minus
              rfl
            · simp [Ahead.literal]
        | _ => rfl
  | t :: t' :: ts => 
      cases t with
      | group => rfl
      | leaf l => cases l with
        | punct d joint =>
            by_cases minus : d = '-'
            · subst minus
              cases t' with
              | group => rfl
              | leaf l' => cases l' <;> rfl
            · simp [Ahead.literal, minus]
        | _ => rfl

end Border

/-- An operator is made of tokens ahead: what stands before an empty border. -/
theorem length_of_op {chars : List Char} {ts : List TokenTree} (seen : Ahead.op chars ts = true) : chars.length ≤ ts.length :=
  Border.fronts_op (s := ⟨[], [], Or.inl rfl, Or.inl ⟨rfl, rfl⟩⟩) chars ts (by rwa [List.append_nil])

/-! Parsers. -/

/-- What the first parser reads before the border, the second reads where other braces stand. -/
def Carries (s : Border) (p q : Parser α) (r : Rules) (c : Cursor) : Prop :=
  ∀ a c', p.run r c = some (.ok (a, c')) → s.Before c' →
    s.Before c ∧ ∀ under, q.run r (s.move under c) = some (.ok (a, s.move under c'))

/-- What a parser reads before the border, it reads where other braces stand there. -/
abbrev Kept (s : Border) (p : Parser α) (r : Rules) (c : Cursor) : Prop := Carries s p p r c

namespace Carries

variable {s : Border} {p q : Parser α} {next next' : α → Parser β}

theorem pure (a : α) : Kept s (Pure.pure a) r c := by
  intro b c' ran before
  cases ran
  exact ⟨before, fun _ => rfl⟩

theorem bindYields {P : α → Cursor → Prop} (first : Carries s p q r c) (yields : Yields p r c P)
    (second : ∀ a c', P a c' → Carries s (next a) (next' a) r c') : Carries s (p >>= next) (q >>= next') r c := by
  intro b c'' ran before
  rw [run_bind] at ran
  cases found : p.run r c with
  | none => rw [found] at ran; cases ran
  | some answer =>
      rw [found] at ran
      match answer, ran with
      | .error place, ran => cases ran
      | .ok (a, c'), ran =>
          obtain ⟨between, later⟩ := second a c' (yields a c' found) b c'' ran before
          obtain ⟨start, earlier⟩ := first a c' found between
          refine ⟨start, fun under => ?_⟩
          rw [run_bind, earlier]
          exact later under

theorem bind (first : Carries s p q r c) (second : ∀ a c', Carries s (next a) (next' a) r c') :
    Carries s (p >>= next) (q >>= next') r c :=
  bindYields (P := fun _ _ => True) first (fun _ _ _ => trivial) fun a c' _ => second a c'

theorem get {next next' : Cursor → Parser β} (second : ∀ under, Carries s (next c) (next' (s.move under c)) r c) :
    Carries s (MonadState.get >>= next) (MonadState.get >>= next') r c :=
  fun b c' ran before => ⟨(second [] b c' ran before).1, fun under => (second under b c' ran before).2 under⟩

theorem fail : Carries s (Parsing.fail : Parser α) q r c :=
  fun a c' ran => by cases ran

theorem refuse {place : Place} : Carries s (Parsing.refuse place : Parser α) q r c :=
  fun a c' ran => by cases ran

theorem ite {b : Prop} [Decidable b] {yes no yes' no' : Parser α} (holds : b → Carries s yes yes' r c)
    (fails : ¬b → Carries s no no' r c) : Carries s (if b then yes else no) (if b then yes' else no') r c := by
  split
  · exact holds ‹b›
  · exact fails ‹¬b›

theorem ahead {look : List TokenTree → Bool} (blind : s.Blind look) : Kept s (ahead look) r c := by
  intro seen c' ran before
  cases ran
  obtain ⟨ts, shape⟩ := before.1
  refine ⟨before, fun under => ?_⟩
  rw [run_ahead, Border.move_of_append shape.symm, ← blind ts, shape]

theorem ifAhead {look : List TokenTree → Bool} {yes no yes' no' : Parser β} (blind : s.Blind look)
    (seen : look c.rest = true → Carries s yes yes' r c) (unseen : look c.rest = false → Carries s no no' r c) :
    Carries s (do if ← Parsing.ahead look then yes else no) (do if ← Parsing.ahead look then yes' else no') r c := by
  refine bindYields (ahead blind) Yields.ahead ?_
  rintro found c' ⟨rfl, rfl⟩
  cases found : look c'.rest with
  | true => exact seen found
  | false => exact unseen found

/-- A choice by a look that may tell what stands at the border, where neither way leads on from there. -/
theorem ifSolid {look : List TokenTree → Bool} {yes no yes' no' : Parser β}
    (blind : ∀ t ts, look (t :: (ts ++ s.near)) = look (t :: (ts ++ s.far)))
    (seen : look c.rest = true → Carries s yes yes' r c) (unseen : look c.rest = false → Carries s no no' r c)
    (stuck : c.rest = s.near → Yields (do if ← Parsing.ahead look then yes else no) r c fun _ c' => ¬ s.Before c') :
    Carries s (do if ← Parsing.ahead look then yes else no) (do if ← Parsing.ahead look then yes' else no') r c := by
  intro b c' ran before
  have chosen' : ∀ under, (do if ← Parsing.ahead look then yes' else no' : Parser β).run r (s.move under c)
      = (if look (s.move under c).rest then yes' else no').run r (s.move under c) := fun _ => rfl
  by_cases bare : c.rest = s.near
  · exact absurd before (stuck bare b c' ran)
  · have same : s.near <:+ c.rest → ∀ under, look (s.move under c).rest = look c.rest := by
      rintro ⟨ts, own⟩ under
      cases ts with
      | nil => exact absurd own.symm bare
      | cons t ts =>
          rw [Border.move_of_append own.symm, ← own]
          exact (blind t ts).symm
    have branch : (if look c.rest then yes else no).run r c = some (.ok (b, c')) := ran
    cases way : look c.rest with
    | true =>
        rw [way, if_pos rfl] at branch
        obtain ⟨start, there⟩ := seen way b c' branch before
        refine ⟨start, fun under => ?_⟩
        rw [chosen', same start.1, way]
        exact there under
    | false =>
        rw [way, if_neg Bool.false_ne_true] at branch
        obtain ⟨start, there⟩ := unseen way b c' branch before
        refine ⟨start, fun under => ?_⟩
        rw [chosen', same start.1, way]
        exact there under

/-! Single tokens. -/

theorem consume {count : Nat} {lexemes : List Lexeme} (some : count ≤ c.rest.length) :
    Kept s (consume count lexemes) r c := by
  intro u c' ran before
  cases ran
  obtain ⟨behind, clean⟩ := before
  obtain ⟨ts, own⟩ := behind.trans (List.drop_suffix _ _)
  have short : count ≤ ts.length := by
    have left := behind.length_le
    have all := congrArg List.length own
    simp only [Cursor.skip, List.length_drop, List.length_append] at left all
    omega
  refine ⟨⟨⟨ts, own⟩, clean⟩, fun under => ?_⟩
  have rest : (c.skip count lexemes).rest = ts.drop count ++ s.near := by
    rw [← List.drop_append_of_le_length short, own]
    rfl
  rw [Border.move_of_append own.symm, Border.move_of_append rest, run_consume]
  simp [Cursor.skip, List.drop_append_of_le_length short]

theorem op (chars : List Char) : Kept s (takeOp chars) r c :=
  ifAhead (s.blind_op chars) (fun seen => consume (length_of_op seen)) fun _ => fail

theorem someOp (chars : List Char) : Kept s (takeOp? chars) r c :=
  ifAhead (s.blind_op chars) (fun seen => bind (consume (length_of_op seen)) fun _ _ => pure true)
    fun _ => pure false

/-- A parser that takes some tokens if they are as asked, and tells that from these alone. -/
theorem front {k : List TokenTree → Option (α × Nat × List Lexeme)}
    (shape : ∀ c, p.run r c = match k c.rest with
      | some (a, count, lexemes) => some (.ok (a, c.skip count lexemes))
      | none => some (.error c.place))
    (short : ∀ ts a count lexemes, k ts = some (a, count, lexemes) → count ≤ ts.length)
    (same : ∀ ts a count lexemes, k (ts ++ s.near) = some (a, count, lexemes) → count ≤ ts.length →
      k (ts ++ s.far) = some (a, count, lexemes)) : Kept s p r c := by
  intro a c' ran before
  rw [shape] at ran
  cases found : k c.rest with
  | none => simp only [found] at ran; cases ran
  | some taken =>
      obtain ⟨b, count, lexemes⟩ := taken
      simp only [found] at ran
      cases ran
      have taking : Kept s (Parsing.consume count lexemes) r c := consume (short _ _ _ _ found)
      obtain ⟨start, there⟩ := taking () _ rfl before
      refine ⟨start, fun under => ?_⟩
      obtain ⟨ts, own⟩ := start.1
      have few : count ≤ ts.length := by
        have left := before.1.length_le
        have all := congrArg List.length own
        have some := short _ _ _ _ found
        simp only [Cursor.skip, List.length_drop, List.length_append] at left all
        omega
      have there := there under
      rw [Border.move_of_append own.symm] at there ⊢
      rw [shape, same ts _ _ _ (by rw [own, found]) few]
      have reached : Cursor.skip count lexemes { c with rest := ts ++ s.far, read := c.read ++ under }
          = s.move under (c.skip count lexemes) :=
        (Prod.mk.inj (Except.ok.inj (Option.some.inj there))).2
      simp only [reached]

/-- A parser that takes one token. -/
theorem token {k : TokenTree → Option (α × List Lexeme)}
    (shape : ∀ c, p.run r c = match c.rest with
      | t :: _ => match k t with
        | some (a, lexemes) => some (.ok (a, c.skip 1 lexemes))
        | none => some (.error c.place)
      | [] => some (.error c.place)) : Kept s p r c := by
  refine front (k := fun ts => ts.head?.bind fun t => (k t).map fun x => (x.1, 1, x.2)) (fun c => ?_) ?_ ?_
  · rw [shape]
    cases c.rest with
    | nil => rfl
    | cons t rest => cases found : k t <;> simp [found]
  · intro ts a count lexemes found
    cases ts with
    | nil => cases found
    | cons t ts =>
        obtain ⟨x, -, same⟩ := Option.map_eq_some_iff.mp (show (k t).map _ = _ from found)
        cases same
        exact Nat.succ_pos _
  · intro ts a count lexemes found some
    cases ts with
    | nil =>
        obtain ⟨t, -, found⟩ := Option.bind_eq_some_iff.mp found
        obtain ⟨x, -, same⟩ := Option.map_eq_some_iff.mp found
        cases same
        cases some
    | cons t ts => exact found

/-- What a name, a lifetime, a text and a group take. -/
def identTaken : TokenTree → Option (Ident × List Lexeme)
  | .leaf (.ident name) => some (name, [.ident name])
  | _ => none

def lifetimeTaken : TokenTree → Option (Lifetime × List Lexeme)
  | .leaf (.lifetime name) => some (name, [.lifetime name])
  | _ => none

def textTaken : TokenTree → Option (TextLiteral × List Lexeme)
  | .leaf (.literal name) => if h : Literal.isText name.text = true then some (⟨name, h⟩, [.literal name]) else none
  | _ => none

def groupTaken : TokenTree → Option (Bool × List Lexeme)
  | .group d inside => some (d == .brace, (TokenTree.group d inside).lexemes)
  | _ => none

theorem anyIdent : Kept s takeAnyIdent r c :=
  token (k := identTaken) fun c => by
    obtain ⟨rest, stray, read⟩ := c
    rcases rest with _ | ⟨_ | _, more⟩
    · rfl
    · rename_i lexeme
      cases lexeme <;> rfl
    · rfl

theorem takeLifetime : Kept s takeLifetime r c :=
  token (k := lifetimeTaken) fun c => by
    obtain ⟨rest, stray, read⟩ := c
    rcases rest with _ | ⟨_ | _, more⟩
    · rfl
    · rename_i lexeme
      cases lexeme <;> rfl
    · rfl

theorem textLiteral : Kept s takeTextLiteral r c :=
  token (k := textTaken) fun c => by
    obtain ⟨rest, stray, read⟩ := c
    rcases rest with _ | ⟨_ | _, more⟩
    · rfl
    · rename_i lexeme
      cases lexeme with
      | literal name =>
          by_cases isText : Literal.isText name.text = true
          · simp [takeTextLiteral, textTaken, run_bind, run_get, Parser.andThen, isText, run_consume, run_pure]
          · simp [takeTextLiteral, textTaken, run_bind, run_get, Parser.andThen, isText]
            rfl
      | _ => rfl
    · rfl

theorem takeGroup : Kept s takeGroup r c :=
  token (k := groupTaken) fun c => by
    obtain ⟨rest, stray, read⟩ := c
    rcases rest with _ | ⟨_ | _, more⟩ <;> rfl

/-- What a literal takes. -/
def literalTaken : List TokenTree → Option (Unit × Nat × List Lexeme)
  | .leaf (.literal name) :: _ => some ((), 1, [.literal name])
  | .leaf (.ident name) :: _ => if name.text == "true" || name.text == "false" then some ((), 1, [.ident name]) else none
  | .leaf (.punct '-' _) :: .leaf (.literal name) :: _ =>
      if Literal.isNumber name.text then some ((), 2, [.punct '-' false, .literal name]) else none
  | _ => none

theorem literal : Kept s takeLiteral r c := by
  refine front (k := literalTaken) (fun c => ?_) ?_ ?_
  · obtain ⟨rest, stray, read⟩ := c
    change (match rest with
      | .leaf (.literal name) :: _ => Parsing.consume 1 [.literal name]
      | .leaf (.ident name) :: _ =>
          if name.text == "true" || name.text == "false" then Parsing.consume 1 [.ident name] else Parsing.fail
      | .leaf (.punct '-' _) :: .leaf (.literal name) :: _ =>
          if Literal.isNumber name.text then Parsing.consume 2 [.punct '-' false, .literal name] else Parsing.fail
      | _ => Parsing.fail : Parser Unit).run r _ = _
    unfold literalTaken
    dsimp only
    split
    · rfl
    · split <;> rfl
    · split <;> rfl
    · rfl
  · intro ts a count lexemes found
    unfold literalTaken at found
    split at found
    · cases found
      exact Nat.succ_pos _
    · split at found <;> cases found
      exact Nat.succ_pos _
    · split at found <;> cases found
      exact Nat.succ_le_succ (Nat.succ_pos _)
    · cases found
  · intro ts a count lexemes found some
    -- only a literal behind the first token makes a difference
    have further : ∀ t t' more, literalTaken (t :: t' :: more) = literalTaken [t, t'] := by
      intro t t' more
      rcases t with l | _
      · cases l with
        | punct d joint =>
            by_cases minus : d = '-'
            · subst minus
              rcases t' with l' | _
              · cases l' <;> rfl
              · rfl
            · simp [literalTaken, minus]
        | _ => rfl
      · rfl
    have alone : ∀ t d inside, literalTaken [t, .group d inside] = literalTaken [t] := by
      intro t d inside
      rcases t with l | _
      · cases l with
        | punct d joint => by_cases minus : d = '-' <;> simp [literalTaken, minus]
        | _ => rfl
      · rfl
    rcases s.far_end with ⟨near, far⟩ | ⟨inside, behind, far⟩
    · rwa [far, ← near]
    match ts with
    | [] => rcases s.near_end with near | ⟨inside, near⟩ <;> rw [near] at found <;> cases found
    | [t] =>
        rw [List.singleton_append, far, further, alone]
        rcases s.near_end with near | ⟨inside', near⟩ <;> rw [near] at found
        · exact found
        · rwa [List.singleton_append, alone] at found
    | t :: t' :: ts =>
        rw [List.cons_append, List.cons_append, further] at found ⊢
        exact found

theorem word (w : String) : Kept s (takeWord w) r c :=
  ifAhead (s.blind_word w) (fun _ => bind anyIdent fun _ _ => pure ()) fun _ => fail

theorem someWord (w : String) : Kept s (takeWord? w) r c :=
  ifAhead (s.blind_word w) (fun _ => bind anyIdent fun _ _ => pure true) fun _ => pure false

theorem ident : Kept s takeIdent r c :=
  ifAhead s.blind_ident (fun _ => anyIdent) fun _ => fail

theorem someLifetime : Kept s takeLifetime? r c :=
  ifAhead s.blind_lifetime (fun _ => bind takeLifetime fun l _ => pure (some l)) fun _ => pure none

/-! Groups, and what is kept as lexemes. -/

end Carries

/-- A group that was read, and the cursor where reading it ended inside. -/
theorem Yields.group {d : Delimiter} {p : Parser α} : Yields (Parsing.within d p) r c fun a c' => ∃ inside after inner,
    c.rest = .group d inside :: after ∧ p.run r (.start inside) = some (.ok (a, inner)) ∧ c' = c.leave d after inner := by
  refine Yields.get ?_
  split
  · rename_i e inside after same
    split
    · rename_i own
      subst own
      intro a c' ran
      change Option.map _ (p.run r (.start inside)) = _ at ran
      obtain ⟨answer, found, shape⟩ := Option.map_eq_some_iff.mp ran
      match answer, found, shape with
      | .ok (b, inner), found, shape =>
          cases shape
          exact ⟨inside, after, inner, same, found, rfl⟩
    · exact Yields.fail
  · exact Yields.fail

theorem run_within {d : Delimiter} {p : Parser α} {inside after : List TokenTree} {a : α} {inner : Cursor}
    (found : p.run r (.start inside) = some (.ok (a, inner))) (ahead : c.rest = .group d inside :: after) :
    (within d p).run r c = some (.ok (a, c.leave d after inner)) := by
  obtain ⟨rest, stray, read⟩ := c
  subst ahead
  change (if d = d then enclosed d inside after p else fail).run r _ = _
  rw [if_pos rfl]
  change Option.map _ (p.run r (.start inside)) = _
  rw [found]
  rfl

/-- The lexemes of what was passed between two cursors. -/
def passed (c c' : Cursor) : List Lexeme :=
  TokenTree.lexemesAll (c.rest.take (c.rest.length - c'.rest.length))

namespace Carries

variable {s : Border} {p q : Parser α} {next next' : α → Parser β}

theorem within (d : Delimiter) (p : Parser α) : Kept s (within d p) r c := by
  intro a c' ran before
  obtain ⟨inside, after, inner, ahead, found, rfl⟩ := Yields.group a c' ran
  obtain ⟨⟨ts, behind⟩, clean⟩ := before
  obtain ⟨clean, nothing⟩ := Option.or_eq_none_iff.mp clean
  have own : c.rest = (.group d inside :: ts) ++ s.near := by
    rw [ahead, List.cons_append, behind]
    rfl
  refine ⟨⟨⟨_, own.symm⟩, clean⟩, fun under => ?_⟩
  rw [Border.move_of_append own, Border.move_of_append (t := ts) behind.symm, run_within found rfl]
  have whole : inner.leftover = none := by simpa using nothing
  simp [Cursor.leave, whole]

/-- A group at the border is what stands there itself, so reading it passes the border. -/
theorem stuck_within (d : Delimiter) (p : Parser α) (bare : c.rest = s.near) :
    Yields (Parsing.within d p) r c fun _ c' => ¬ s.Before c' := by
  refine Yields.group.mono ?_
  rintro a c' ⟨inside, after, inner, ahead, -, rfl⟩ before
  have longer := congrArg List.length (bare.symm.trans ahead)
  have shorter := before.1.length_le
  simp only [List.length_cons, Cursor.leave] at longer shorter
  omega

/-! What is kept as lexemes. -/

theorem run_captured (p : Parser α) (c : Cursor) :
    (Parsing.captured p).run r c = Parser.andThen (p.run r { c with read := [] }) fun a c' =>
      some (.ok ((a, c'.read.reverse), { c' with read := c'.read ++ c.read })) := rfl

theorem captured (inner : ∀ c', c'.rest = c.rest → Carries s p q r c') : Carries s (captured p) (captured q) r c := by
  intro x c'' ran before
  rw [run_captured] at ran
  cases found : p.run r { c with read := [] } with
  | none => rw [found] at ran; cases ran
  | some answer =>
      rw [found] at ran
      match answer, ran with
      | .error place, ran => cases ran
      | .ok (a, c'), ran =>
          cases ran
          obtain ⟨start, earlier⟩ := inner { c with read := [] } rfl a c' found before
          refine ⟨start, fun under => ?_⟩
          -- what is kept begins with nothing read, in either place
          have there := earlier []
          rw [run_captured]
          simp only [Border.move, List.append_nil] at there ⊢
          rw [there]
          simp [Parser.andThen]

/-- What passes the border passes it as well where its lexemes are kept. -/
theorem stuck_captured (stuck : ∀ c', c'.rest = c.rest → Yields p r c' fun _ c'' => ¬ s.Before c'') :
    Yields (Parsing.captured p) r c fun _ c' => ¬ s.Before c' := by
  refine Yields.get (Yields.bind (P := fun _ c' => c'.rest = c.rest) ?_ fun _ c' same => ?_)
  · intro u c' ran
    cases ran
    rfl
  · refine Yields.bind (stuck c' same) fun a c'' passed => Yields.get ?_
    refine Yields.bind (P := fun _ c₃ => ¬ s.Before c₃) ?_ fun _ _ passed => Yields.pure passed
    intro u c₃ ran before
    cases ran
    exact passed before

theorem run_asWrittenWhen (keep : α → Bool) (p : Parser α) (c : Cursor) :
    (Parsing.asWrittenWhen keep p).run r c = Parser.andThen (p.run r c) fun a c' =>
      some (.ok ((a, passed c c'), if keep a then { c' with read := (passed c c').reverse ++ c.read } else c')) := by
  change Parser.andThen (p.run r c) _ = _
  congr 1
  funext a c'
  cases kept : keep a <;> simp [kept, run_bind, run_get, Parser.andThen] <;> rfl

theorem asWrittenWhen {keep : α → Bool} (inner : Carries s p q r c) :
    Carries s (asWrittenWhen keep p) (asWrittenWhen keep q) r c := by
  intro x c'' ran before
  rw [run_asWrittenWhen] at ran
  cases found : p.run r c with
  | none => rw [found] at ran; cases ran
  | some answer =>
      rw [found] at ran
      match answer, ran with
      | .error place, ran => cases ran
      | .ok (a, c'), ran =>
          have between : s.Before c' := by
            cases ran
            split at before <;> exact before
          obtain ⟨start, earlier⟩ := inner a c' found between
          obtain ⟨ts, own⟩ := start.1
          obtain ⟨ts', behind⟩ := between.1
          have same : ∀ under, passed (s.move under c) (s.move under c') = passed c c' := by
            intro under
            rw [Border.move_of_append own.symm, Border.move_of_append behind.symm, passed, passed, ← own, ← behind]
            simp only [List.length_append, Nat.add_sub_add_right]
            rw [List.take_append_of_le_length (Nat.sub_le _ _), List.take_append_of_le_length (Nat.sub_le _ _)]
          refine ⟨start, fun under => ?_⟩
          rw [run_asWrittenWhen, earlier, Parser.andThen, same]
          cases ran
          cases keep a <;> simp [Border.move]

/-! Repetition. More tokens behind the border allow more rounds, which makes no difference. -/

theorem loop {loop : Nat → Parser α} (none : loop 0 = Parsing.fail)
    (step : ∀ few many, (∀ c', Carries s (loop few) (loop many) r c') →
      ∀ c', Carries s (loop (few + 1)) (loop (many + 1)) r c') {few many : Nat} (le : few ≤ many) :
    Carries s (loop few) (loop many) r c := by
  induction few generalizing many c with
  | zero =>
      rw [none]
      exact fail
  | succ few ih =>
      obtain ⟨many, rfl⟩ := Nat.exists_eq_succ_of_ne_zero (Nat.ne_of_gt (Nat.lt_of_lt_of_le (Nat.succ_pos few) le))
      exact step few many (fun _ => ih (Nat.le_of_succ_le_succ le)) c

/-- A loop with a round for every token ahead. -/
theorem rounds {loop : Nat → Parser α} (none : loop 0 = Parsing.fail)
    (step : ∀ few many, (∀ c', Carries s (loop few) (loop many) r c') →
      ∀ c', Carries s (loop (few + 1)) (loop (many + 1)) r c') :
    Kept s (do loop ((← MonadState.get : Cursor).rest.length + 1)) r c :=
  get fun _ => Carries.loop none step (Nat.succ_le_succ (Border.length_le_move c))

theorem listUntil {stop : List TokenTree → Bool} {separator : Parser Unit} (blind : s.Blind stop)
    (each : ∀ c', Kept s p r c') (apart : ∀ c', Kept s separator r c') : Kept s (listUntil stop p separator) r c := by
  refine rounds rfl fun few many ih c' => ?_
  refine ifAhead blind (fun _ => pure []) fun _ => bind (each c') fun a c'' => ?_
  refine ifAhead blind (fun _ => pure [a]) fun _ => bind (apart c'') fun _ c₃ => ?_
  exact bind (ih c₃) fun _ _ => pure _

theorem chainUntil {separator : List Char} {stop : List TokenTree → Bool} (blind : s.Blind stop)
    (each : ∀ c', Kept s p r c') : Kept s (chainUntil separator stop p) r c := by
  refine rounds rfl fun few many ih c' => ?_
  refine ifAhead blind (fun _ => pure []) fun _ => bind (each c') fun a c'' => bind (someOp separator) fun more c₃ => ?_
  cases more with
  | true => exact bind (ih c₃) fun _ _ => pure _
  | false => exact pure [a]

theorem iterate {step : α → Parser (Option α)} (each : ∀ a c', Kept s (step a) r c') (a : α) :
    Kept s (iterate step a) r c := by
  have rounds : ∀ few many a c', few ≤ many → Carries s (iterateRounds step few a) (iterateRounds step many a) r c' := by
    intro few
    induction few with
    | zero => exact fun _ _ _ _ => fail
    | succ few ih =>
        intro many a c' le
        obtain ⟨many, rfl⟩ := Nat.exists_eq_succ_of_ne_zero (Nat.ne_of_gt (Nat.lt_of_lt_of_le (Nat.succ_pos few) le))
        refine bind (each a c') fun further c'' => ?_
        cases further with
        | some b => exact ih many b c'' (Nat.le_of_succ_le_succ le)
        | none => exact pure a
  exact get fun _ => rounds _ _ a c (Nat.succ_le_succ (Border.length_le_move c))

end Carries

end Accessors.Parsing
