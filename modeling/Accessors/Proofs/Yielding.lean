import Accessors.Proofs.Reading

/-!
What a parser yields where it succeeds. A property of the result, and of the cursor behind it, follows from what
the parsers yield that it is put together from.
-/

namespace Accessors.Parsing

variable {α β : Type} {r : Rules} {c : Cursor}

/-- Where a parser succeeds, its result and the cursor behind it are as asked. -/
def Yields (p : Parser α) (r : Rules) (c : Cursor) (Q : α → Cursor → Prop) : Prop :=
  ∀ a c', p.run r c = some (.ok (a, c')) → Q a c'

namespace Yields

variable {p : Parser α} {P Q : α → Cursor → Prop} {R : β → Cursor → Prop} {next : α → Parser β}

theorem mono (first : Yields p r c P) (weaker : ∀ a c', P a c' → Q a c') : Yields p r c Q :=
  fun a c' ran => weaker a c' (first a c' ran)

theorem pure {a : α} (holds : Q a c) : Yields (Pure.pure a) r c Q := by
  intro b c' ran
  cases ran
  exact holds

theorem bind (first : Yields p r c P) (second : ∀ a c', P a c' → Yields (next a) r c' R) :
    Yields (p >>= next) r c R := by
  intro b c'' ran
  rw [run_bind] at ran
  cases found : p.run r c with
  | none => rw [found] at ran; cases ran
  | some answer =>
      rw [found] at ran
      match answer, ran with
      | .error place, ran => cases ran
      | .ok (a, c'), ran => exact second a c' (first a c' found) b c'' ran

/-- Whatever a first parser yields. -/
theorem step (second : ∀ a c', Yields (next a) r c' R) : Yields (p >>= next) r c R :=
  bind (P := fun _ _ => True) (fun _ _ _ => trivial) fun a c' _ => second a c'

theorem get {next : Cursor → Parser β} (second : Yields (next c) r c R) : Yields (MonadState.get >>= next) r c R :=
  second

theorem fail : Yields (fail : Parser α) r c Q := by
  intro a c' ran
  cases ran

theorem refuse {place : Place} : Yields (refuse place : Parser α) r c Q := by
  intro a c' ran
  cases ran

theorem ite {b : Prop} [Decidable b] {yes no : Parser α} (holds : b → Yields yes r c Q) (fails : ¬b → Yields no r c Q) :
    Yields (if b then yes else no) r c Q := by
  split
  · exact holds ‹b›
  · exact fails ‹¬b›

theorem ahead {look : List TokenTree → Bool} : Yields (ahead look) r c fun seen c' => seen = look c.rest ∧ c' = c := by
  intro seen c' ran
  cases ran
  exact ⟨rfl, rfl⟩

theorem ifAhead {look : List TokenTree → Bool} {yes no : Parser β} (seen : look c.rest = true → Yields yes r c R)
    (unseen : look c.rest = false → Yields no r c R) :
    Yields (do if ← Parsing.ahead look then yes else no) r c R := by
  refine bind ahead ?_
  rintro found c' ⟨rfl, rfl⟩
  cases found : look c'.rest with
  | true => exact seen found
  | false => exact unseen found

/-! Single tokens. -/

theorem someOp {chars : List Char} :
    Yields (takeOp? chars) r c fun taken c' => taken = Ahead.op chars c.rest ∧ (taken = false → c' = c) :=
  ifAhead (fun seen => step fun _ _ => pure ⟨seen.symm, fun no => by cases no⟩)
    fun unseen => pure ⟨unseen.symm, fun _ => rfl⟩

theorem someWord {w : String} :
    Yields (takeWord? w) r c fun taken c' => taken = Ahead.word w c.rest ∧ (taken = false → c' = c) :=
  ifAhead (fun seen => step fun _ _ => pure ⟨seen.symm, fun no => by cases no⟩)
    fun unseen => pure ⟨unseen.symm, fun _ => rfl⟩

theorem someLifetime :
    Yields takeLifetime? r c fun taken c' => taken = none → Ahead.lifetime c.rest = false ∧ c' = c :=
  ifAhead (fun _ => step fun _ _ => pure fun no => by cases no) fun unseen => pure fun _ => ⟨unseen, rfl⟩

theorem anyIdent : Yields takeAnyIdent r c fun name _ => ∃ rest, c.rest = .leaf (.ident name) :: rest := by
  refine get ?_
  split
  · rename_i name rest same
    exact step fun _ _ => pure ⟨rest, same⟩
  · exact fail

theorem ident : Yields takeIdent r c fun name _ =>
    name.text ∉ reserved ∧ ∃ rest, c.rest = .leaf (.ident name) :: rest := by
  refine ifAhead (fun seen => anyIdent.mono ?_) fun _ => fail
  rintro name _ ⟨rest, same⟩
  rw [same] at seen
  exact ⟨by simpa [Ahead.ident] using seen, rest, same⟩

/-! Groups, and what is kept as lexemes. -/

variable {V : α → Prop}

theorem within {d : Delimiter} (inner : ∀ c', Yields p r c' fun a _ => V a) :
    Yields (within d p) r c fun a _ => V a := by
  refine get ?_
  split
  · rename_i e inside after same
    split
    · intro a c' ran
      change Option.map _ (p.run r (.start inside)) = _ at ran
      obtain ⟨answer, found, shape⟩ := Option.map_eq_some_iff.mp ran
      match answer, found, shape with
      | .ok (b, stop), found, shape =>
          cases shape
          exact inner _ _ _ found
    · exact fail
  · exact fail

theorem captured (inner : ∀ c', c'.rest = c.rest → Yields p r c' fun a _ => V a) :
    Yields (captured p) r c fun x _ => V x.1 := by
  refine get (bind (P := fun _ c' => c'.rest = c.rest) ?_ ?_)
  · intro a c' ran
    cases ran
    rfl
  · intro _ c' same
    refine bind (inner c' same) fun a c'' holds => ?_
    exact get (step fun _ _ => pure holds)

theorem asWrittenWhen {keep : α → Bool} (inner : Yields p r c fun a _ => V a) :
    Yields (asWrittenWhen keep p) r c fun x _ => V x.1 := by
  refine get (bind inner fun a c' holds => get ?_)
  dsimp only
  split
  · exact step fun _ _ => pure holds
  · exact pure holds

/-! Lists. -/

theorem listUntil {stop : List TokenTree → Bool} {separator : Parser Unit} (each : ∀ c', Yields p r c' fun a _ => V a) :
    Yields (listUntil stop p separator) r c fun xs _ => ∀ x ∈ xs, V x := by
  have rounds : ∀ count c', Yields (listRounds stop p separator count) r c' fun xs _ => ∀ x ∈ xs, V x := by
    intro count
    induction count with
    | zero => exact fun _ => fail
    | succ count ih =>
        refine fun c' => ifAhead (fun _ => pure (by simp)) fun _ => bind (each c') fun a c'' first => ?_
        refine ifAhead (fun _ => pure (by simpa using first)) fun _ => step fun _ c''' => ?_
        exact bind (ih c''') fun xs _ later => pure (List.forall_mem_cons.mpr ⟨first, later⟩)
  exact get (rounds _ c)

theorem commaList (each : ∀ c', Yields p r c' fun a _ => V a) : Yields (commaList p) r c fun xs _ => ∀ x ∈ xs, V x :=
  listUntil each

theorem chainUntil {separator : List Char} {stop : List TokenTree → Bool}
    (each : ∀ c', Yields p r c' fun a _ => V a) :
    Yields (chainUntil separator stop p) r c fun xs _ => ∀ x ∈ xs, V x := by
  have rounds : ∀ count c', Yields (chainRounds separator stop p count) r c' fun xs _ => ∀ x ∈ xs, V x := by
    intro count
    induction count with
    | zero => exact fun _ => fail
    | succ count ih =>
        refine fun c' => ifAhead (fun _ => pure (by simp)) fun _ => bind (each c') fun a c'' first => ?_
        refine step fun another c''' => ?_
        cases another with
        | true => exact bind (ih c''') fun xs _ later => pure (List.forall_mem_cons.mpr ⟨first, later⟩)
        | false => exact pure (by simpa using first)
  exact get (rounds _ c)

end Yields

end Accessors.Parsing
