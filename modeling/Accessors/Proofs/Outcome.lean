/-!
Taking successful computations apart. A sequence succeeds when both parts do, and a loop when each of its rounds
does.
-/

namespace Accessors.Outcome

variable {ε ε' α β : Type}

theorem bind_ok {x : Except ε α} {next : α → Except ε β} {b : β} :
    (x >>= next) = .ok b ↔ ∃ a, x = .ok a ∧ next a = .ok b := by
  cases x <;> simp [bind, Except.bind]

theorem bind_error {x : Except ε α} {next : α → Except ε β} {e : ε} :
    (x >>= next) = .error e ↔ x = .error e ∨ ∃ a, x = .ok a ∧ next a = .error e := by
  cases x <;> simp [bind, Except.bind]

theorem pure_ok {a b : α} : (pure a : Except ε α) = .ok b ↔ a = b := by
  simp [pure, Except.pure]

theorem map_error_of_ok (f : ε → ε') (a : α) : (Except.ok a).mapError f = .ok a := rfl

theorem map_error_ok {x : Except ε α} {f : ε → ε'} {a : α} : x.mapError f = .ok a ↔ x = .ok a := by
  cases x with
  | error e => constructor <;> (intro same; cases same)
  | ok given => constructor <;> (intro same; cases same; rfl)

theorem map_error_error {x : Except ε α} {f : ε → ε'} {e' : ε'} :
    x.mapError f = .error e' ↔ ∃ e, x = .error e ∧ f e = e' := by
  cases x with
  | error e =>
      constructor
      · intro same
        exact ⟨e, rfl, Except.error.inj same⟩
      · rintro ⟨_, here, rfl⟩
        cases here
        rfl
  | ok a =>
      constructor
      · intro same
        cases same
      · rintro ⟨_, here, _⟩
        cases here

theorem to_option_some {x : Except ε α} {a : α} : x.toOption = some a ↔ x = .ok a := by
  cases x <;> simp [Except.toOption]

/-- A loop that ends well went through a good round for each of its inputs. -/
theorem fold_ok_round {round : β → α → Except ε β} {inputs : List α} {first last : β}
    (done : inputs.foldlM round first = .ok last) :
    ∀ input ∈ inputs, ∃ before after, round before input = .ok after := by
  induction inputs generalizing first with
  | nil => simp
  | cons head tail ih =>
      rw [List.foldlM_cons] at done
      obtain ⟨middle, step, rest⟩ := bind_ok.mp done
      intro input member
      rcases List.mem_cons.mp member with same | later
      · rw [same]
        exact ⟨first, middle, step⟩
      · exact ih rest input later

/-- A loop that fails has failed in the round for one of its inputs. -/
theorem fold_error_round {round : β → α → Except ε β} {inputs : List α} {first : β} {e : ε}
    (failed : inputs.foldlM round first = .error e) : ∃ input ∈ inputs, ∃ before, round before input = .error e := by
  induction inputs generalizing first with
  | nil => cases failed
  | cons head tail ih =>
      rw [List.foldlM_cons] at failed
      rcases bind_error.mp failed with here | ⟨middle, _, later⟩
      · exact ⟨head, List.mem_cons_self, first, here⟩
      · obtain ⟨input, member, before, broken⟩ := ih later
        exact ⟨input, List.mem_cons_of_mem head member, before, broken⟩

end Accessors.Outcome
