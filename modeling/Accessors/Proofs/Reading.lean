import Accessors.Parsing.Types
import Accessors.Proofs.Glyphs

/-!
Parsers that read what glyphs write. A parser reads some glyphs if, wherever they stand, it answers a result,
stops before the glyphs behind them and passes nothing over. What a parser reads that is put together from others
follows from what these read, one rule for each way of putting them together.
-/

namespace Accessors.Parsing

open Glyph (trees joins comma between)

variable {α β : Type} {r : Rules}

/-! How parsers run. -/

theorem run_bind (p : Parser α) (next : α → Parser β) (r : Rules) (c : Cursor) :
    (p >>= next).run r c = Parser.andThen (p.run r c) fun a c' => (next a).run r c' := rfl

theorem run_pure (a : α) (r : Rules) (c : Cursor) : (Pure.pure a : Parser α).run r c = some (.ok (a, c)) := rfl

theorem run_get (r : Rules) (c : Cursor) : (MonadState.get : Parser Cursor).run r c = some (.ok (c, c)) := rfl

theorem run_ahead (look : List TokenTree → Bool) (r : Rules) (c : Cursor) :
    (ahead look).run r c = some (.ok (look c.rest, c)) := rfl

theorem run_consume (count : Nat) (lexemes : List Lexeme) (r : Rules) (c : Cursor) :
    (consume count lexemes).run r c = some (.ok ((), c.skip count lexemes)) := rfl

/-- A parser reads what stands before the second glyphs in the first. -/
def Reads (p : Parser α) (r : Rules) (before : List Glyph) (a : α) (after : List Glyph) : Prop :=
  ∀ stray read, ∃ read', p.run r ⟨trees before, stray, read⟩ = some (.ok (a, ⟨trees after, stray, read'⟩))

namespace Reads

variable {p : Parser α} {a : α} {b : β} {before middle after : List Glyph}

theorem pure (a : α) (before : List Glyph) : Reads (Pure.pure a) r before a before :=
  fun _ read => ⟨read, rfl⟩

theorem bind {next : α → Parser β} (first : Reads p r before a middle) (second : Reads (next a) r middle b after) :
    Reads (p >>= next) r before b after := by
  intro stray read
  obtain ⟨read', step⟩ := first stray read
  obtain ⟨read'', step'⟩ := second stray read'
  refine ⟨read'', ?_⟩
  change Parser.andThen (p.run r _) _ = _
  rw [step]
  exact step'

/-- What depends on the place of the cursor alone. -/
theorem get {next : Cursor → Parser β} (second : ∀ c : Cursor, c.rest = trees before → Reads (next c) r before b after) :
    Reads (MonadState.get >>= next) r before b after :=
  fun stray read => second ⟨trees before, stray, read⟩ rfl stray read

theorem ahead {look : List TokenTree → Bool} {seen : Bool} (looks : look (trees before) = seen) :
    Reads (ahead look) r before seen before :=
  fun _ read => ⟨read, by rw [← looks]; rfl⟩

theorem consume {count : Nat} (lexemes : List Lexeme) (dropped : (trees before).drop count = trees after) :
    Reads (consume count lexemes) r before () after :=
  fun _ read => ⟨lexemes.reverse ++ read, by rw [← dropped]; rfl⟩

/-- A choice by what is ahead. -/
theorem ifSeen {look : List TokenTree → Bool} {yes no : Parser β} (looks : look (trees before) = true)
    (chosen : Reads yes r before b after) :
    Reads (do if ← Parsing.ahead look then yes else no) r before b after :=
  (ahead looks).bind chosen

theorem ifNot {look : List TokenTree → Bool} {yes no : Parser β} (looks : look (trees before) = false)
    (chosen : Reads no r before b after) :
    Reads (do if ← Parsing.ahead look then yes else no) r before b after :=
  (ahead looks).bind chosen

/-! Single tokens. -/

theorem op {chars : List Char} (ahead : Ahead.op chars (trees before) = true)
    (dropped : (trees before).drop chars.length = trees after) : Reads (takeOp chars) r before () after :=
  ifSeen ahead (consume _ dropped)

theorem someOp {chars : List Char} (ahead : Ahead.op chars (trees before) = true)
    (dropped : (trees before).drop chars.length = trees after) : Reads (takeOp? chars) r before true after :=
  ifSeen ahead ((consume _ dropped).bind (pure true after))

theorem noOp {chars : List Char} (ahead : Ahead.op chars (trees before) = false) :
    Reads (takeOp? chars) r before false before :=
  ifNot ahead (pure false before)

theorem anyIdent (name : Ident) (after : List Glyph) : Reads takeAnyIdent r (.word name :: after) name after :=
  fun _ read => ⟨.ident name :: read, rfl⟩

theorem ident {name : Ident} (free : name.text ∉ reserved) (after : List Glyph) :
    Reads takeIdent r (.word name :: after) name after :=
  ifSeen (by simpa [Ahead.ident] using free) (anyIdent name after)

theorem word {w : String} {name : Ident} (same : name.text = w) (after : List Glyph) :
    Reads (takeWord w) r (.word name :: after) () after :=
  ifSeen (by simpa [Ahead.word] using same) ((anyIdent name after).bind (pure () after))

theorem someWord {w : String} {name : Ident} (same : name.text = w) (after : List Glyph) :
    Reads (takeWord? w) r (.word name :: after) true after :=
  ifSeen (by simpa [Ahead.word] using same) ((anyIdent name after).bind (pure true after))

theorem noWord {w : String} (other : Ahead.word w (trees before) = false) :
    Reads (takeWord? w) r before false before :=
  ifNot other (pure false before)

theorem lifetime (l : Lifetime) (after : List Glyph) : Reads takeLifetime r (.lifetime l :: after) l after :=
  fun _ read => ⟨.lifetime l :: read, rfl⟩

theorem someLifetime (l : Lifetime) (after : List Glyph) :
    Reads takeLifetime? r (.lifetime l :: after) (some l) after :=
  ifSeen rfl ((lifetime l after).bind (pure (some l) after))

theorem noLifetime (other : Ahead.lifetime (trees before) = false) : Reads takeLifetime? r before none before :=
  ifNot other (pure none before)

theorem textLiteral (name : TextLiteral) (after : List Glyph) :
    Reads takeTextLiteral r (.literal name :: after) name after := by
  refine get fun c ahead => ?_
  rw [ahead]
  simp only [Glyph.trees_literal, dif_pos name.isText]
  exact (consume [.literal name.toLiteral] rfl).bind (pure name after)

/-! Groups. -/

theorem within {d : Delimiter} {inside : List Glyph} (inner : Reads p r inside a []) (after : List Glyph) :
    Reads (within d p) r (.group d inside :: after) a after := by
  refine get fun c ahead => ?_
  rw [ahead]
  simp only [Glyph.trees_group, if_true]
  intro stray read
  obtain ⟨read', step⟩ := inner none []
  refine ⟨.closing d :: (read' ++ .opening d :: read), ?_⟩
  change Option.map _ (p.run r (.start (trees inside))) = _
  rw [Cursor.start, step]
  simp [Cursor.leave, Cursor.leftover]

/-! What is kept as lexemes. -/

theorem captured {next : α × List Lexeme → Parser β} (first : Reads p r before a middle)
    (second : ∀ lexemes, Reads (next (a, lexemes)) r middle b after) :
    Reads (Parsing.captured p >>= next) r before b after := by
  intro stray read
  obtain ⟨read', step⟩ := first stray []
  obtain ⟨read'', step'⟩ := second read'.reverse stray (read' ++ read)
  have whole : (Parsing.captured p).run r ⟨trees before, stray, read⟩
      = some (.ok ((a, read'.reverse), ⟨trees middle, stray, read' ++ read⟩)) := by
    change Parser.andThen (p.run r ⟨trees before, stray, []⟩) _ = _
    rw [step]
    rfl
  refine ⟨read'', ?_⟩
  change Parser.andThen ((Parsing.captured p).run r _) _ = _
  rw [whole]
  exact step'

theorem asWritten {keep : α → Bool} {next : α × List Lexeme → Parser β} (dropped : keep a = false)
    (first : Reads p r before a middle) (second : ∀ lexemes, Reads (next (a, lexemes)) r middle b after) :
    Reads (asWrittenWhen keep p >>= next) r before b after := by
  intro stray read
  obtain ⟨read', step⟩ := first stray read
  obtain ⟨read'', step'⟩ := second (TokenTree.lexemesAll
    ((trees before).take ((trees before).length - (trees middle).length))) stray read'
  have whole : (asWrittenWhen keep p).run r ⟨trees before, stray, read⟩
      = some (.ok ((a, TokenTree.lexemesAll ((trees before).take ((trees before).length - (trees middle).length))),
        ⟨trees middle, stray, read'⟩)) := by
    change Parser.andThen (p.run r ⟨trees before, stray, read⟩) _ = _
    rw [step]
    simp only [Parser.andThen, dropped, Bool.false_eq_true, if_false]
    rfl
  refine ⟨read'', ?_⟩
  change Parser.andThen ((asWrittenWhen keep p).run r _) _ = _
  rw [whole]
  exact step'

/-! Lists. -/

/-- Several things that each write a token write at least as many. -/
theorem length_le_between {write : α → List Glyph} {xs : List α} (separator : List Glyph)
    (solid : ∀ x ∈ xs, trees (write x) ≠ []) : xs.length ≤ (trees (between separator (xs.map write))).length := by
  induction xs with
  | nil => exact Nat.le_refl 0
  | cons x xs ih =>
      have first := List.length_pos_iff.mpr (solid x List.mem_cons_self)
      have rest := ih fun y member => solid y (List.mem_cons_of_mem x member)
      cases xs with
      | nil =>
          simp only [List.map_cons, List.map_nil, between, List.length_cons, List.length_nil]
          omega
      | cons y xs =>
          simp only [List.map_cons, between, List.length_cons, Glyph.trees_length_append] at rest ⊢
          omega

/-- A list with commas up to a stop. What an element is followed by is a comma or what stands behind the list. -/
theorem listRounds {stop : List TokenTree → Bool} {write : α → List Glyph} {xs : List α}
    (ends : stop (trees after) = true) (goes : ∀ x ∈ xs, ∀ rest, stop (trees (write x ++ rest)) = false)
    (goesOn : ∀ rest, stop (trees (comma ++ rest)) = false)
    (each : ∀ x ∈ xs, ∀ rest, (rest = after ∨ ∃ more, rest = comma ++ more) → Reads p r (write x ++ rest) x rest)
    {rounds : Nat} (enough : xs.length < rounds) :
    Reads (listRounds stop p (takeOp [',']) rounds) r (between comma (xs.map write) ++ after) xs after := by
  induction xs generalizing rounds with
  | nil =>
      obtain ⟨rounds, rfl⟩ := Nat.exists_eq_succ_of_ne_zero (Nat.ne_of_gt enough)
      exact ifSeen ends (pure [] after)
  | cons x xs ih =>
      obtain ⟨rounds, rfl⟩ := Nat.exists_eq_succ_of_ne_zero (Nat.ne_of_gt (Nat.lt_of_le_of_lt (Nat.zero_le _) enough))
      have later := ih (fun y member => goes y (List.mem_cons_of_mem x member))
        (fun y member => each y (List.mem_cons_of_mem x member)) (Nat.lt_of_succ_lt_succ enough)
      have first := each x List.mem_cons_self
      cases xs with
      | nil =>
          refine ifNot (goes x List.mem_cons_self after) ?_
          exact (first after (Or.inl rfl)).bind (ifSeen ends (pure [x] after))
      | cons y xs =>
          have here := first (comma ++ (between comma ((y :: xs).map write) ++ after)) (Or.inr ⟨_, rfl⟩)
          have shape : between comma ((x :: y :: xs).map write) ++ after
              = write x ++ (comma ++ (between comma ((y :: xs).map write) ++ after)) := by
            simp [between]
          rw [shape]
          refine ifNot (goes x List.mem_cons_self _) (here.bind (ifNot (goesOn _) ?_))
          refine Reads.bind (op rfl rfl) (later.bind ?_)
          exact pure (x :: y :: xs) after

theorem listUntil {stop : List TokenTree → Bool} {write : α → List Glyph} {xs : List α}
    (solid : ∀ x ∈ xs, trees (write x) ≠ []) (ends : stop (trees after) = true)
    (goes : ∀ x ∈ xs, ∀ rest, stop (trees (write x ++ rest)) = false)
    (goesOn : ∀ rest, stop (trees (comma ++ rest)) = false)
    (each : ∀ x ∈ xs, ∀ rest, (rest = after ∨ ∃ more, rest = comma ++ more) → Reads p r (write x ++ rest) x rest) :
    Reads (listUntil stop p (takeOp [','])) r (between comma (xs.map write) ++ after) xs after := by
  refine get fun c ahead => listRounds ends goes goesOn each ?_
  have some := length_le_between comma solid
  rw [ahead, Glyph.trees_length_append]
  omega

/-- A list with commas that fills its group. -/
theorem commaList {write : α → List Glyph} {xs : List α} (solid : ∀ x ∈ xs, trees (write x) ≠ [])
    (each : ∀ x ∈ xs, ∀ rest, (rest = [] ∨ ∃ more, rest = comma ++ more) → Reads p r (write x ++ rest) x rest) :
    Reads (commaList p) r (between comma (xs.map write)) xs [] := by
  have goes : ∀ x ∈ xs, ∀ rest, Ahead.atEnd (trees (write x ++ rest)) = false := by
    intro x member rest
    have some := List.length_pos_iff.mpr (solid x member)
    have more := Glyph.trees_length_append (write x) rest
    rw [Ahead.atEnd, List.isEmpty_eq_false_iff, ← List.length_pos_iff]
    omega
  have read := listUntil solid rfl goes (fun _ => rfl) each
  rw [List.append_nil] at read
  exact read

/-- A list up to a stop with a separator between each two. What stands behind an element is the separator, or what
stands behind the list if it is the last. -/
theorem chainUntil {separator : List Char} {glyphs : List Glyph} {stop : List TokenTree → Bool} {write : α → List Glyph}
    {xs : List α} (solid : ∀ x ∈ xs, trees (write x) ≠ []) (ends : stop (trees after) = true)
    (noMore : Ahead.op separator (trees after) = false) (goes : ∀ x ∈ xs, ∀ rest, stop (trees (write x ++ rest)) = false)
    (parts : ∀ rest, Ahead.op separator (trees (glyphs ++ rest)) = true
      ∧ (trees (glyphs ++ rest)).drop separator.length = trees rest)
    (last : ∀ x, [x] <:+ xs → Reads p r (write x ++ after) x after)
    (inner : ∀ x y more, x :: y :: more <:+ xs → ∀ rest, Reads p r (write x ++ (glyphs ++ rest)) x (glyphs ++ rest)) :
    Reads (chainUntil separator stop p) r (between glyphs (xs.map write) ++ after) xs after := by
  have rounds : ∀ count, xs.length < count →
      Reads (chainRounds separator stop p count) r (between glyphs (xs.map write) ++ after) xs after := by
    intro count enough
    clear solid
    induction xs generalizing count with
    | nil =>
        obtain ⟨count, rfl⟩ := Nat.exists_eq_succ_of_ne_zero (Nat.ne_of_gt enough)
        exact ifSeen ends (pure [] after)
    | cons x xs ih =>
        obtain ⟨count, rfl⟩ := Nat.exists_eq_succ_of_ne_zero (Nat.ne_of_gt (Nat.lt_of_le_of_lt (Nat.zero_le _) enough))
        have later := ih (fun y member => goes y (List.mem_cons_of_mem x member))
          (fun y listed => last y (listed.trans (List.suffix_cons x xs)))
          (fun y z more listed => inner y z more (listed.trans (List.suffix_cons x xs))) count (Nat.lt_of_succ_lt_succ enough)
        cases xs with
        | nil =>
            refine ifNot (goes x List.mem_cons_self after) ((last x (List.suffix_refl _)).bind ?_)
            exact (noOp noMore).bind (pure [x] after)
        | cons y xs =>
            have shape : between glyphs ((x :: y :: xs).map write) ++ after
                = write x ++ (glyphs ++ (between glyphs ((y :: xs).map write) ++ after)) := by
              simp [between]
            obtain ⟨seen, dropped⟩ := parts (between glyphs ((y :: xs).map write) ++ after)
            rw [shape]
            refine ifNot (goes x List.mem_cons_self _) ((inner x y xs (List.suffix_refl _) _).bind ?_)
            exact (someOp seen dropped).bind (later.bind (pure (x :: y :: xs) after))
  refine get fun c ahead => rounds _ ?_
  have some := length_le_between glyphs solid
  rw [ahead, Glyph.trees_length_append]
  omega

end Reads

end Accessors.Parsing
