import Accessors.Parsing.Source
import Accessors.Proofs.Borders

/-!
What a parser answers in front of trees. Where nothing was passed over before, it gives a result and stops before other
trees, or it gives no result at all, and what was read before does not matter. So what is written out tree by tree is
read step by step, and a part that may fail makes the whole fail.
-/

namespace Accessors.Parsing

variable {α β γ : Type} {r : Rules}

/-- In front of the given trees a parser gives a result and stops before others, or it gives none. -/
def Answers (p : Parser α) (r : Rules) (ts : List TokenTree) : Option (α × List TokenTree) → Prop
  | some (a, t) => ∀ read, ∃ read', p.run r ⟨ts, none, read⟩ = some (.ok (a, ⟨t, none, read'⟩))
  | none => ∀ read, Yields p r ⟨ts, none, read⟩ fun _ _ => False

namespace Answers

variable {p : Parser α} {next : α → Parser β} {a : α} {ts t t' : List TokenTree} {o : Option (β × List TokenTree)}

theorem pure (a : α) (ts : List TokenTree) : Answers (Pure.pure a) r ts (some (a, ts)) := fun read => ⟨read, rfl⟩

theorem fail : Answers (Parsing.fail : Parser α) r ts none := fun _ => Yields.fail

theorem bind (first : Answers p r ts (some (a, t))) (second : Answers (next a) r t o) : Answers (p >>= next) r ts o := by
  match o, second with
  | none, second =>
      intro read b c' ran
      obtain ⟨read', step⟩ := first read
      rw [run_bind, step] at ran
      exact second read' b c' ran
  | some (b, t'), second =>
      intro read
      obtain ⟨read', step⟩ := first read
      obtain ⟨read'', later⟩ := second read'
      exact ⟨read'', by rw [run_bind, step]; exact later⟩

/-- A first parser without a result leads on to none. -/
theorem bindNone (first : Answers p r ts none) : Answers (p >>= next) r ts none :=
  fun read => Yields.bind (first read) fun _ _ never => never.elim

/-- A first parser that may give no result. -/
theorem bindSome {x : Option α} {y : α → Option β} (first : Answers p r ts (x.map (·, t)))
    (second : ∀ a, Answers (next a) r t ((y a).map (·, t'))) : Answers (p >>= next) r ts ((x.bind y).map (·, t')) := by
  cases x with
  | none => exact bindNone first
  | some a => exact bind first (second a)

theorem bindMap {x : Option γ} {f : γ → α} {g : γ → β} (first : Answers p r ts (x.map fun u => (f u, t)))
    (second : ∀ u, Answers (next (f u)) r t (some (g u, t'))) :
    Answers (p >>= next) r ts (x.map fun u => (g u, t')) := by
  cases x with
  | none => exact bindNone first
  | some u => exact bind first (second u)

theorem get {next : Cursor → Parser β} (second : ∀ read, Answers (next ⟨ts, none, read⟩) r ts o) :
    Answers (MonadState.get >>= next) r ts o := by
  match o, second with
  | none, second => exact fun read => second read read
  | some (b, t'), second => exact fun read => second read read

theorem ifTrue {p : Parser Bool} {yes no : Parser β} (first : Answers p r ts (some (true, t)))
    (second : Answers yes r t o) : Answers (do if ← p then yes else no) r ts o :=
  bind first second

theorem ifFalse {p : Parser Bool} {yes no : Parser β} (first : Answers p r ts (some (false, t)))
    (second : Answers no r t o) : Answers (do if ← p then yes else no) r ts o :=
  bind first second

theorem ahead {look : List TokenTree → Bool} {b : Bool} (looks : look ts = b) :
    Answers (Parsing.ahead look) r ts (some (b, ts)) :=
  fun read => ⟨read, by rw [← looks]; rfl⟩

theorem takeIdent {name : Ident} (free : name.text ∉ reserved) (ts : List TokenTree) :
    Answers takeIdent r (.leaf (.ident name) :: ts) (some (name, ts)) :=
  ifTrue (ahead (by simpa [Ahead.ident] using free)) fun read => ⟨.ident name :: read, rfl⟩

theorem someWord {w : String} {name : Ident} (same : name.text = w) (ts : List TokenTree) :
    Answers (takeWord? w) r (.leaf (.ident name) :: ts) (some (true, ts)) :=
  ifTrue (ahead (by simpa [Ahead.word] using same)) fun read => ⟨.ident name :: read, rfl⟩

theorem noWord {w : String} (other : Ahead.word w ts = false) : Answers (takeWord? w) r ts (some (false, ts)) :=
  ifFalse (ahead other) (pure false ts)

theorem stuckWord {w : String} (other : Ahead.word w ts = false) : Answers (takeWord w) r ts none :=
  ifFalse (ahead other) fail

/-- What was read in its own writing takes no part in what is answered. -/
theorem asWrittenWhen {keep : α → Bool} {x : Option γ} {f : γ → α} (inner : Answers p r ts (x.map fun u => (f u, t))) :
    Answers (asWrittenWhen keep p) r ts
      (x.map fun u => ((f u, TokenTree.lexemesAll (ts.take (ts.length - t.length))), t)) := by
  cases x with
  | none => exact get fun _ => bindNone inner
  | some u =>
      intro read
      obtain ⟨read', step⟩ := inner read
      rw [Carries.run_asWrittenWhen, step]
      dsimp only [Parser.andThen]
      split
      · exact ⟨_, rfl⟩
      · exact ⟨_, rfl⟩

/-- A group is read if all of what is inside it is. -/
theorem within {x : Option γ} {f : γ → α} {d : Delimiter} {inside : List TokenTree}
    (inner : Answers p r inside (x.map fun u => (f u, []))) (after : List TokenTree) :
    Answers (within d p) r (.group d inside :: after) (x.map fun u => (f u, after)) := by
  refine get fun read₀ => ?_
  simp only [if_true]
  cases x with
  | none =>
      intro read a c' ran
      change Option.map _ (p.run r (.start inside)) = _ at ran
      obtain ⟨answer, found, shape⟩ := Option.map_eq_some_iff.mp ran
      match answer, found, shape with
      | .ok (b, stop), found, _ => exact inner [] b stop found
  | some u =>
      intro read
      obtain ⟨read', step⟩ := inner []
      refine ⟨.closing d :: (read' ++ .opening d :: read), ?_⟩
      change Option.map _ (p.run r (.start inside)) = _
      rw [Cursor.start, step]
      simp [Cursor.leave, Cursor.leftover]

/-- What a parser answers in front of a whole text is what it gives for it. -/
theorem ok_iff {x : Option α} (answers : Answers p r ts (x.map (·, []))) : (∃ read, p.run r (.start ts) = some (.ok (a, ⟨[], none, read⟩))) ↔ x = some a := by
  cases x with
  | none =>
      constructor
      · rintro ⟨read, ran⟩
        exact (answers [] a _ ran).elim
      · intro same
        cases same
  | some b =>
      obtain ⟨read, step⟩ := answers []
      constructor
      · rintro ⟨read', ran⟩
        cases step.symm.trans ran
        rfl
      · intro same
        cases same
        exact ⟨read, step⟩

/-- A rule is carried out by the level above. -/
theorem nested {rule : Rule α} {n : Nat} {o : Option (α × List TokenTree)} (body : Answers rule.body (rules n) ts o) :
    Answers (nested rule) (rules (n + 1)) ts o := by
  match o, body with
  | none, body => exact body
  | some (a, t), body => exact body

/-! Repetition. -/

/-- A step that leads nowhere ends the repetition. -/
theorem iterateStop {step : α → Parser (Option α)} {x : Option γ} (stop : Answers (step a) r ts (x.map fun _ => (none, t))) :
    Answers (iterate step a) r ts (x.map fun _ => (a, t)) := by
  refine get fun _ => ?_
  cases x with
  | none => exact bindNone stop
  | some u => exact bind stop (pure a t)

/-- A step that leads on, and one that leads nowhere. -/
theorem iterateOnce {step : α → Parser (Option α)} {x : Option γ} {b : α} {first : TokenTree}
    (once : Answers (step a) r (first :: ts) (x.map fun _ => (some b, t))) (stop : Answers (step b) r t (some (none, t'))) :
    Answers (iterate step a) r (first :: ts) (x.map fun _ => (b, t')) := by
  refine get fun _ => ?_
  cases x with
  | none => exact bindNone once
  | some u => exact bind once (bind stop (pure b t'))

/-- Pieces that are read one after the other are read as a list up to the end, if each gives a result. -/
theorem plainList (pieces : List (List TokenTree × Option α))
    (each : ∀ piece ∈ pieces, piece.1 ≠ [] ∧ ∀ after, Answers p r (piece.1 ++ after) (piece.2.map (·, after))) :
    Answers (plainList p) r (pieces.flatMap Prod.fst) ((pieces.mapM Prod.snd).map (·, [])) := by
  have size : ∀ pieces : List (List TokenTree × Option α), (∀ piece ∈ pieces, piece.1 ≠ []) →
      pieces.length ≤ (pieces.flatMap Prod.fst).length := by
    intro pieces solid
    induction pieces with
    | nil => exact Nat.le_refl _
    | cons piece more ih =>
        obtain ⟨some, others⟩ := List.forall_mem_cons.mp solid
        have one := List.length_pos_iff.mpr some
        rw [List.flatMap_cons, List.length_append, List.length_cons]
        have rest := ih others
        omega
  have rounds : ∀ count, pieces.length < count →
      Answers (listRounds Ahead.atEnd p (Pure.pure ()) count) r (pieces.flatMap Prod.fst) ((pieces.mapM Prod.snd).map (·, [])) := by
    intro count enough
    induction pieces generalizing count with
    | nil =>
        obtain ⟨count, rfl⟩ := Nat.exists_eq_succ_of_ne_zero (Nat.ne_of_gt enough)
        exact ifTrue (ahead rfl) (pure [] [])
    | cons piece more ih =>
        obtain ⟨count, rfl⟩ := Nat.exists_eq_succ_of_ne_zero (Nat.ne_of_gt (Nat.lt_of_le_of_lt (Nat.zero_le _) enough))
        obtain ⟨⟨some, first⟩, others⟩ := List.forall_mem_cons.mp each
        have goes : Ahead.atEnd (piece.1 ++ more.flatMap Prod.fst) = false := by
          cases shape : piece.1 with
          | nil => exact absurd shape some
          | cons _ _ => rfl
        rw [List.flatMap_cons, List.mapM_cons]
        refine ifFalse (ahead goes) (bindSome (first _) fun a => ?_)
        cases more with
        | nil => exact ifTrue (ahead rfl) (pure [a] [])
        | cons next more =>
            have goes : Ahead.atEnd ((next :: more).flatMap Prod.fst) = false := by
              cases shape : next.1 with
              | nil => exact absurd shape (others next List.mem_cons_self).1
              | cons _ _ => simp [shape, Ahead.atEnd]
            refine ifFalse (ahead goes) (bind (pure () _) ?_)
            exact bindSome (ih others count (Nat.lt_of_succ_lt_succ enough)) fun xs => pure _ _
  exact get fun _ => rounds _ (Nat.lt_succ_of_le (size pieces fun piece listed => (each piece listed).1))

theorem plainPair {x y : Option α} {front back : List TokenTree} (solid : front ≠ [] ∧ back ≠ [])
    (first : ∀ after, Answers p r (front ++ after) (x.map (·, after)))
    (second : ∀ after, Answers p r (back ++ after) (y.map (·, after))) :
    Answers (Parsing.plainList p) r (front ++ back) ((x.bind fun a => y.map fun b => [a, b]).map (·, [])) := by
  have both := plainList (p := p) (r := r) [(front, x), (back, y)]
    (by simp only [List.forall_mem_cons]; exact ⟨⟨solid.1, first⟩, ⟨solid.2, second⟩, by simp⟩)
  have all : [(front, x), (back, y)].mapM Prod.snd = x.bind fun a => y.map fun b => [a, b] := by
    cases x <;> cases y <;> rfl
  rw [all] at both
  simpa using both

end Answers

/-- In front of some trees a parser does what another one does in front of others. -/
def Reaches (p q : Parser α) (r : Rules) (ts t : List TokenTree) : Prop :=
  ∀ read, ∃ read', p.run r ⟨ts, none, read⟩ = q.run r ⟨t, none, read'⟩

namespace Reaches

variable {p q : Parser α} {next : α → Parser β} {a : α} {ts t t' : List TokenTree}

theorem refl (p : Parser α) (r : Rules) (ts : List TokenTree) : Reaches p p r ts ts := fun read => ⟨read, rfl⟩

theorem bind {q : Parser β} (first : Answers p r ts (some (a, t))) (second : Reaches (next a) q r t t') :
    Reaches (p >>= next) q r ts t' := by
  intro read
  obtain ⟨read', step⟩ := first read
  obtain ⟨read'', later⟩ := second read'
  exact ⟨read'', by rw [run_bind, step]; exact later⟩

/-- What follows either of them. -/
theorem behind (first : Reaches p q r ts t) (next : α → Parser β) : Reaches (p >>= next) (q >>= next) r ts t := by
  intro read
  obtain ⟨read', step⟩ := first read
  exact ⟨read', by rw [run_bind, run_bind, step]⟩

theorem yields {Q : α → Cursor → Prop} (first : Reaches p q r ts t) (second : ∀ read, Yields q r ⟨t, none, read⟩ Q)
    (read : List Lexeme) : Yields p r ⟨ts, none, read⟩ Q := by
  intro a c ran
  obtain ⟨read', step⟩ := first read
  exact second read' a c (step.symm.trans ran)

theorem answers {o : Option (α × List TokenTree)} (first : Reaches p q r ts t) (second : Answers q r t o) :
    Answers p r ts o := by
  match o, second with
  | none, second => exact first.yields second
  | some (a, t'), second =>
      intro read
      obtain ⟨read', step⟩ := first read
      obtain ⟨read'', later⟩ := second read'
      exact ⟨read'', step.trans later⟩

end Reaches

end Accessors.Parsing
