import Accessors.Proofs.ClosedSpaces

/-!
The passes over token text. Each rule is applied round after round as long as its pattern is there. Such a loop comes
to an end because a round shortens the text, and it ends in one text only. No pass brings back what an earlier one has
closed, so after all of them no pattern is left and a second tightening finds nothing to do. On the whole way nothing
but spaces is deleted.
-/

namespace Accessors.Spacing

/-- A loop does not end in two texts. -/
theorem ends_unique {rule : Rule} {text last other : List Char} (ends : rule.EndsIn text last)
    (ends' : rule.EndsIn text other) : other = last := by
  induction ends with
  | closed absent =>
      cases ends' with
      | closed _ => rfl
      | round found _ => exact absurd found absent
  | round found _ ih =>
      cases ends' with
      | closed absent => exact absurd found absent
      | round _ later => exact ih later

/-- Rules are applied one after the other, each until its loop ends. -/
inductive PassesTo : List Rule → List Char → List Char → Prop
  | done {text : List Char} : PassesTo [] text text
  | pass {rule : Rule} {later : List Rule} {text closed last : List Char} (ends : rule.EndsIn text closed)
      (rest : PassesTo later closed last) : PassesTo (rule :: later) text last

section

variable {some : List Rule} {text last : List Char}

theorem passes_unique {other : List Char} (passes : PassesTo some text last) (passes' : PassesTo some text other) :
    other = last := by
  induction passes with
  | done =>
      cases passes' with
      | done => rfl
  | pass ends _ ih =>
      cases passes' with
      | pass ends' rest' =>
          rw [ends_unique ends ends'] at rest'
          exact ih rest'

theorem passes_fold (listed : ∀ rule ∈ some, rule ∈ rules) (text : List Char) :
    PassesTo some text (some.foldl Rule.apply text) := by
  induction some generalizing text with
  | nil => exact .done
  | cons rule later ih =>
      have here := listed rule List.mem_cons_self
      have more : ∀ other ∈ later, other ∈ rules := fun other member => listed other (List.mem_cons_of_mem rule member)
      exact .pass (ends_apply here text) (ih more _)

/-- After some of the passes no pattern of theirs is left. -/
theorem passes_free {later : List Rule} (split : rules = some ++ later) (passes : PassesTo some text last) :
    ∀ rule ∈ some, ¬ rule.spaced <:+: last := by
  have front : some.Sublist rules := by
    rw [split]
    exact List.sublist_append_left some later
  have listed : ∀ rule ∈ some, rule ∈ rules := fun rule member => front.subset member
  rw [passes_unique (passes_fold listed text) passes]
  exact all_free_fold listed (rules_spared.sublist front) text

end

/-! What is deleted. -/

/-- A text with some of its spaces deleted and nothing else changed. -/
inductive Thinned : List Char → List Char → Prop
  | nil : Thinned [] []
  | keep (c : Char) {text less : List Char} (rest : Thinned text less) : Thinned (c :: text) (c :: less)
  | drop {text less : List Char} (rest : Thinned text less) : Thinned (' ' :: text) less

section

variable {text less : List Char}

theorem thinned_self (text : List Char) : Thinned text text := by
  induction text with
  | nil => exact .nil
  | cons c text ih => exact .keep c ih

theorem thinned_behind (before : List Char) (thinned : Thinned text less) :
    Thinned (before ++ text) (before ++ less) := by
  induction before with
  | nil => exact thinned
  | cons c before ih => exact .keep c ih

theorem thinned_further {least : List Char} (thinned : Thinned text less) (further : Thinned less least) :
    Thinned text least := by
  induction thinned generalizing least with
  | nil => exact further
  | keep c _ ih =>
      cases further with
      | keep _ rest => exact .keep c (ih rest)
      | drop rest => exact .drop (ih rest)
  | drop _ ih => exact .drop (ih further)

theorem thinned_of_run (run : Relation.ReflTransGen Drops text less) : Thinned text less := by
  induction run with
  | refl => exact thinned_self text
  | tail _ step ih =>
      obtain ⟨before, after, rfl, rfl, _⟩ := step
      apply thinned_further ih
      apply thinned_behind before
      exact .drop (thinned_self after)

end

/-- On every text the passes come to an end, in the tightened text and in no other. It is the text without some of its
spaces. No pattern of the passes that were made is left at any moment, none at all in the end, and tightening it again
changes nothing. -/
theorem normalize_settled (text : String) :
    (∀ last, PassesTo rules text.toList last ↔ last = (normalize text).toList)
      ∧ Thinned text.toList (normalize text).toList
      ∧ (∀ made left last, rules = made ++ left → PassesTo made text.toList last →
          ∀ rule ∈ made, ¬ rule.spaced <:+: last)
      ∧ (∀ rule ∈ rules, ¬ rule.spaced <:+: (normalize text).toList)
      ∧ normalize (normalize text) = normalize text := by
  have result : (normalize text).toList = tighten text.toList := String.toList_ofList
  have passes : PassesTo rules text.toList (tighten text.toList) := passes_fold (fun _ member => member) text.toList
  have free := tighten_free text.toList
  rw [result]
  refine ⟨fun last => ⟨passes_unique passes, ?_⟩, thinned_of_run (tighten_run text.toList), ?_, free, ?_⟩
  · intro same
    rw [same]
    exact passes
  · intro made left last split passes'
    exact passes_free split passes'
  · have again : tighten (tighten text.toList) = tighten text.toList := run_of_free free (tighten_run _)
    unfold normalize
    rw [String.toList_ofList, again]

/-- The first three passes over a path of names. -/
theorem normalize_of_sample :
    (∃ left, rules = rules.take 3 ++ left) ∧ PassesTo (rules.take 3) "a :: b , c".toList "a::b , c".toList
      ∧ ¬ [' ', ':', ':'] <:+: "a::b , c".toList ∧ normalize (normalize "a :: b , c") = "a::b, c" := by
  obtain ⟨_, _, settled, _, again⟩ := normalize_settled "a :: b , c"
  have listed : ∀ rule ∈ rules.take 3, rule ∈ rules := fun _ member => List.mem_of_mem_take member
  have passes := passes_fold listed "a :: b , c".toList
  have last : (rules.take 3).foldl Rule.apply "a :: b , c".toList = "a::b , c".toList := by decide +kernel
  rw [last] at passes
  have split : rules = rules.take 3 ++ rules.drop 3 := (List.take_append_drop 3 rules).symm
  have free := settled (rules.take 3) (rules.drop 3) _ split passes ⟨[' ', ':', ':'], [':', ':']⟩ (by decide)
  refine ⟨⟨_, split⟩, passes, free, ?_⟩
  rw [again]
  decide +kernel

end Accessors.Spacing
