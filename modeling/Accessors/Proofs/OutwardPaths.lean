import Accessors.Scope.Absolute
import Mathlib.Logic.Function.Iterate

/-!
Climbing by `super`. Each `super` in front of a path leads one module outward, and from the crate it leads nowhere
else. A run of them is as many steps outward, so it can be taken in two parts, the first of them from the module and
the others from where these end. What comes out is absolute: read from any module it stays as it is.
-/

namespace Accessors

/-- The module around a module. Nothing is around the crate, which stands for itself. -/
def outward (module : List String) : List String :=
  if module.length ≤ 1 then module else module.dropLast

/-- Steps outward leave the front of a module, at least its first segment. -/
theorem outward_steps (steps : Nat) (module : List String) :
    outward^[steps] module = module.take (max (module.length - steps) 1) := by
  induction steps with
  | zero =>
      symm
      apply List.take_of_length_le
      omega
  | succ steps ih =>
      rw [Function.iterate_succ_apply', ih]
      unfold outward
      rw [List.length_take]
      split
      · next short =>
          apply congrArg (module.take ·)
          omega
      · next long =>
          rw [List.dropLast_eq_take, List.length_take, List.take_take]
          apply congrArg (module.take ·)
          omega

/-- Fewer steps than there are segments take one segment each. -/
theorem outward_within {steps : Nat} {module : List String} (within : steps < module.length) :
    outward^[steps] module = module.take (module.length - steps) := by
  have some : max (module.length - steps) 1 = module.length - steps := by omega
  rw [outward_steps, some]

/-- Steps enough end in the crate. -/
theorem outward_to_crate {steps : Nat} {around : List String} (enough : around.length ≤ steps) :
    outward^[steps] ("crate" :: around) = ["crate"] := by
  have one : max (("crate" :: around).length - steps) 1 = 1 := by
    rw [List.length_cons]
    omega
  rw [outward_steps, one]
  rfl

section

variable {first : String} {rest module around : List String}

/-- The run of `super` that leads a path. -/
theorem run_of_supers (ups : Nat) (ends : ∀ more, rest ≠ "super" :: more) :
    (List.replicate ups "super" ++ rest).takeWhile (· == "super") = List.replicate ups "super" := by
  rw [List.takeWhile_append_of_pos (by simp)]
  cases rest with
  | nil => rw [List.takeWhile_nil, List.append_nil]
  | cons next more =>
      have other : next ≠ "super" := fun same => ends more (by rw [same])
      rw [List.takeWhile_cons_of_neg (by simpa using other), List.append_nil]

/-- A run of `super` leads outward by as many steps. -/
theorem absolutize_supers (ups : Nat) (ends : ∀ more, rest ≠ "super" :: more) (module : List String) :
    absolutize (List.replicate (ups + 1) "super" ++ rest) module = outward^[ups + 1] module ++ rest := by
  have run := run_of_supers (ups + 1) ends
  have front : List.replicate (ups + 1) "super" ++ rest = "super" :: (List.replicate ups "super" ++ rest) := rfl
  rw [front] at run
  rw [outward_steps, front]
  unfold absolutize
  simp only [run, List.length_replicate]
  rw [← front, List.drop_left' List.length_replicate]

/-- A climbing path becomes one from the crate. -/
theorem absolutize_climbing (rest : List String) (located : module = "crate" :: around)
    (climbs : first = "self" ∨ first = "super") : ∃ more, absolutize (first :: rest) module = "crate" :: more := by
  rw [located]
  cases climbs with
  | inl own =>
      rw [own, absolutize_self]
      exact ⟨around ++ rest, rfl⟩
  | inr above =>
      rw [above]
      unfold absolutize
      have kept : ∀ ups, max (("crate" :: around).length - ups) 1 = max (around.length - ups) 0 + 1 := by
        intro ups
        rw [List.length_cons]
        omega
      simp only [kept, List.take_succ_cons]
      exact ⟨_, rfl⟩

/-- An absolute path is not changed again. -/
theorem absolutize_again (path : List String) (located : module = "crate" :: around) :
    absolutize (absolutize path module) module = absolutize path module := by
  cases path with
  | nil => rfl
  | cons first rest =>
      by_cases climbs : first = "self" ∨ first = "super"
      · obtain ⟨more, absolute⟩ := absolutize_climbing rest located climbs
        rw [absolute, absolutize_crate]
      · rw [not_or] at climbs
        rw [absolutize_straight climbs.1 climbs.2, absolutize_straight climbs.1 climbs.2]

/-- In a module of the crate an absolute path stays as it is, and a path that begins with `self` or `super` becomes one
from the crate. Of a run of `super` the first ones lead to a module around, as long as there is one, from where the
others lead on; a run that is longer than the module is deep ends in the crate. -/
theorem absolutize_anchored (located : module = "crate" :: around) :
    (∀ path, absolutize (absolutize path module) module = absolutize path module)
      ∧ (∀ first rest, first = "self" ∨ first = "super" → ∃ more, absolutize (first :: rest) module = "crate" :: more)
      ∧ (∀ j k rest, j < module.length → 1 ≤ k → (∀ more, rest ≠ "super" :: more) →
          absolutize (List.replicate (j + k) "super" ++ rest) module
            = absolutize (List.replicate k "super" ++ rest) (module.take (module.length - j)))
      ∧ (∀ ups rest, 1 ≤ ups → module.length ≤ ups + 1 → (∀ more, rest ≠ "super" :: more) →
          absolutize (List.replicate ups "super" ++ rest) module = "crate" :: rest) := by
  refine ⟨fun path => absolutize_again path located, fun first rest => absolutize_climbing rest located, ?_, ?_⟩
  · intro j k rest within some ends
    obtain ⟨ups, rfl⟩ : ∃ ups, k = ups + 1 := ⟨k - 1, by omega⟩
    have parts : j + (ups + 1) = (j + ups) + 1 := by omega
    calc absolutize (List.replicate (j + (ups + 1)) "super" ++ rest) module
        = outward^[(j + ups) + 1] module ++ rest := by rw [parts, absolutize_supers _ ends]
      _ = outward^[ups + 1] (outward^[j] module) ++ rest := by
          rw [← Function.iterate_add_apply, Nat.add_comm (ups + 1) j, parts]
      _ = outward^[ups + 1] (module.take (module.length - j)) ++ rest := by rw [outward_within within]
      _ = absolutize (List.replicate (ups + 1) "super" ++ rest) (module.take (module.length - j)) := by
          rw [absolutize_supers _ ends]
  · intro ups rest some enough ends
    obtain ⟨fewer, rfl⟩ : ∃ fewer, ups = fewer + 1 := ⟨ups - 1, by omega⟩
    rw [located, List.length_cons] at enough
    rw [absolutize_supers _ ends, located, outward_to_crate (by omega)]
    rfl

end

/-- Two modules deep, `super` leads out of both and then no further. -/
theorem anchored_of_sample :
    absolutize ["super", "super", "S"] ["crate", "a", "b"] = absolutize ["super", "S"] ["crate", "a"]
      ∧ absolutize ["super", "super", "super", "S"] ["crate", "a", "b"] = ["crate", "S"]
      ∧ ∃ more, absolutize ["self", "S"] ["crate", "a", "b"] = "crate" :: more := by
  have located : ["crate", "a", "b"] = "crate" :: ["a", "b"] := rfl
  have ends : ∀ more, ["S"] ≠ "super" :: more := by
    intro more same
    exact absurd (List.cons.inj same).1 (by decide)
  obtain ⟨_, climbing, parted, stopped⟩ := absolutize_anchored located
  exact ⟨parted 1 1 ["S"] (by decide) (by decide) ends, stopped 3 ["S"] (by decide) (by decide) ends,
    climbing "self" ["S"] (Or.inl rfl)⟩

end Accessors
