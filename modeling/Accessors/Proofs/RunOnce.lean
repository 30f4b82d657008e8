import Accessors.Generation.Run

/-!
A run happens at most once. Wherever its stages stop, the first call leaves the run done or failed; from then on
every call is refused, and neither the state nor a file changes any more, whatever happens to the files between
the calls.
-/

namespace Accessors

/-- A call of a run: the reference, and the files as the call finds them. -/
structure Call where
  reference : String
  tree : File.Tree

namespace Run

variable {r : Run} {p : Progress} {state : RunState}

/-- The answers to one call after another, each with the state and the files after it. -/
def answers (r : Run) : RunState → List Call → List (Except Error Report × Progress)
  | _, [] => []
  | state, call :: later =>
      let answer := r.execute call.reference ⟨state, call.tree⟩
      answer :: r.answers answer.2.state later

def stateAfter : Except Error Report → RunState
  | .ok _ => .done
  | .error e => .failed e.message

/-- How a call is answered by a run in a state that is not idle. -/
def refusal (state : RunState) (call : Call) : Except Error Report × Progress :=
  (.error (.startedTwice state), ⟨state, call.tree⟩)

theorem terminal_state_after (outcome : Except Error Report) : (stateAfter outcome).isTerminal = true := by
  cases outcome <;> rfl

/-- An idle run ends in the state of its outcome, whichever stage it stopped in. -/
theorem execute_of_idle (reference : String) (idle : p.state = .idle) :
    (r.execute reference p).2.state = stateAfter (r.execute reference p).1 := by
  unfold execute
  rw [if_neg (fun differs => differs idle)]
  cases (r.stages reference).run.run p with
  | mk outcome q => cases outcome <;> rfl

theorem execute_of_begun (reference : String) (begun : p.state ≠ .idle) :
    r.execute reference p = (.error (.startedTwice p.state), p) := by
  unfold execute
  rw [if_pos begun]

theorem answers_of_terminal (ended : state.isTerminal = true) (calls : List Call) :
    r.answers state calls = calls.map (refusal state) := by
  have begun : state ≠ .idle := by
    intro idle
    rw [idle] at ended
    exact absurd ended (by decide)
  -- by induction on the calls: a refusal leaves the state as it was, so the next call is refused in it again
  induction calls with
  | nil => rfl
  | cons call later ih =>
      have first : r.execute call.reference ⟨state, call.tree⟩ = refusal state call :=
        execute_of_begun call.reference begun
      rw [answers, first, List.map_cons]
      exact congrArg _ ih

/-- Of any calls of a new run, with the files changing between them in any way, the first is answered by the
stages and leaves the state of its outcome. Every later call is refused as a second start, with the state and the
files as it found them, and no state after a call is other than terminal. -/
theorem run_once (r : Run) (first : Call) (later : List Call) :
    ∃ outcome u, r.execute first.reference ⟨.idle, first.tree⟩ = (outcome, ⟨stateAfter outcome, u⟩)
      ∧ r.answers .idle (first :: later)
          = (outcome, ⟨stateAfter outcome, u⟩) :: later.map (refusal (stateAfter outcome))
      ∧ (∀ answer ∈ r.answers .idle (first :: later), answer.2.state.isTerminal = true)
      ∧ (Error.startedTwice (stateAfter outcome)).message
          = "configuration error: generation run already " ++ (stateAfter outcome).text := by
  obtain ⟨outcome, u, executed⟩ : ∃ outcome u,
      r.execute first.reference ⟨.idle, first.tree⟩ = (outcome, ⟨stateAfter outcome, u⟩) := by
    have ends := @execute_of_idle r ⟨.idle, first.tree⟩ first.reference rfl
    cases executed : r.execute first.reference ⟨.idle, first.tree⟩ with
    | mk outcome q =>
        rw [executed] at ends
        exact ⟨outcome, q.tree, by rw [← ends]⟩
  have ended := terminal_state_after outcome
  have all : r.answers .idle (first :: later)
      = (outcome, ⟨stateAfter outcome, u⟩) :: later.map (refusal (stateAfter outcome)) := by
    rw [answers, executed, answers_of_terminal ended]
  refine ⟨outcome, u, executed, all, ?_, rfl⟩
  rw [all]
  intro answer member
  rcases List.mem_cons.mp member with same | refused
  · rw [same]
    exact ended
  · obtain ⟨call, _, shape⟩ := List.mem_map.mp refused
    rw [← shape]
    exact ended

end Run

end Accessors
