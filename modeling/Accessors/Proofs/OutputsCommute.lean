import Accessors.Proofs.OutputEffect
import Accessors.Proofs.PlannedOutputs

/-!
Putting out two files side by side. They have the same directories above them, so whoever comes first makes them
and the other finds them made. Each file is opened, or cannot be opened, whether or not the other is there, and
two files at two places are put there in either order.
-/

namespace Accessors

namespace File.Tree

variable {t u m : Tree} {p q up : Path} {place other : Place} {fault : Fault}

/-- The same directories and files stand in both trees. -/
def Alike (t u : Tree) : Prop := u.cwd = t.cwd ∧ ∀ place, u.node? place = t.node? place

theorem put_comm {first second : Node} (t : Tree) (below : place ≠ []) (below' : other ≠ []) (apart : place ≠ other) :
    ((t.put place first).put other second).Alike ((t.put other second).put place first) := by
  refine ⟨rfl, fun spot => ?_⟩
  rw [node?_put _ place spot _ below, node?_put _ other spot _ below', node?_put _ other spot _ below',
    node?_put _ place spot _ below]
  by_cases here : spot = place
  · rw [if_pos here, if_neg (by rw [here]; exact apart), if_pos here]
  · rw [if_neg here, if_neg here]

theorem make_above_congr (same : p.parent? = q.parent?) (t : Tree) : t.makeAbove p = t.makeAbove q := by
  unfold makeAbove
  rw [same]

/-- Where the directories above a path could not be made they cannot be made again, and nothing more is made. -/
theorem make_above_fails_again (made : t.makeAbove p = (m, some (up, fault))) :
    ∃ again, m.makeAbove p = (m, some (up, again)) := by
  unfold makeAbove at made ⊢
  cases above : p.parent?.filter fun up => !up.isEmpty with
  | none =>
      rw [above] at made
      exact absurd (Prod.mk.inj made).2 (by simp)
  | some parent =>
      rw [above] at made
      simp only at made ⊢
      obtain ⟨trees, faults⟩ := Prod.mk.inj made
      obtain ⟨first, refused, paths⟩ := Option.map_eq_some_iff.mp faults
      have failed : t.makeDirectories parent = (m, some first) := Prod.ext trees refused
      obtain ⟨again, stuck⟩ := rounds_fail_again (Nat.lt_succ_self _) failed
      have second : m.makeDirectories parent = (m, some again) := stuck
      rw [second]
      exact ⟨again, by rw [← (Prod.mk.inj paths).1]; rfl⟩

/-- A file beside another one is given the same place whether or not that one is there, and another place. -/
theorem new_place_beside (beside : p.Beside q) (new : t.newPlace p = .ok (some place)) (kept : t.Keeps u) :
    u.newPlace q = t.newPlace q ∧ t.newPlace q ≠ .ok (some place) := by
  obtain ⟨above, name, _, shape, walked, ends, here, _, _⟩ := new_place_some new
  have begins (w : Tree) : w.base q = w.base p := by
    unfold base
    rw [beside.absolute]
  constructor
  · unfold newPlace
    simp only
    rw [begins u, begins t, ← beside.front, kept.base p, walked, kept.steps walked]
    simp only [bind, Except.bind, here, kept.directory above here]
  · intro same
    obtain ⟨above', name', _, shape', _, ends', _, _, _⟩ := new_place_some same
    have names := (List.append_inj' (shape.symm.trans shape') rfl).2
    rw [(List.cons.inj names).1] at ends
    exact beside.apart (ends.trans ends'.symm)

theorem opening_beside {content : Content} (beside : p.Beside q) (opened : t.opening p = .ok (some place)) :
    (t.put place (.file content)).opening q = t.opening q := by
  obtain ⟨new, free⟩ := opening_ok opened
  have below := new_place_ne_nil new
  obtain ⟨same, apart⟩ := new_place_beside beside new (@keeps_put _ _ content below free)
  unfold opening
  rw [same]
  cases found : t.newPlace q with
  | error fault => rfl
  | ok spot =>
      cases spot with
      | none => rfl
      | some spot =>
          have differs : spot ≠ place := by
            intro equal
            rw [equal] at found
            exact apart found
          simp only [bind, Except.bind, node?_put t place spot _ below, if_neg differs]

end File.Tree

namespace EmitRequest

open File (Path Tree Fault)

variable {a b : EmitRequest} {registry : Registry} {first second : Path} {t m : Tree}

/-- Two emissions end in the same way. If the directories above the output cannot be made, both say so of the
same directory, but perhaps not for the same reason. -/
def SameFault (t : Tree) (output : Path) (x y : Option Error) : Prop :=
  x = y ∨ ∃ up reason before after, (t.makeAbove output).2 = some (up, reason)
    ∧ x = some (.io up before) ∧ y = some (.io up after)

theorem emit_at_fault (r : EmitRequest) (registry : Registry) (output : Path) (t u : Tree)
    (opened : Except Fault (Option File.Place)) :
    (r.emitAt registry output t opened).2 = (r.emitAt registry output u opened).2 := by
  cases opened with
  | error fault => rfl
  | ok found => cases found <;> rfl

/-- Emission beside a file that was emitted: the directories are there, and the file is opened as if the other one
were not. -/
theorem emit_into_beside (beside : first.Beside second) (made : t.makeAbove first = (m, none)) :
    b.emitInto registry second (a.emitInto registry first t).1
      = b.emitAt registry second (a.emitAt registry first m (m.opening first)).1 (m.opening second) := by
  have emitted : a.emitInto registry first t = a.emitAt registry first m (m.opening first) := by
    unfold emitInto
    rw [made]
  rw [emitted]
  have both : m.Keeps (a.emitAt registry first m (m.opening first)).1
      ∧ (a.emitAt registry first m (m.opening first)).1.opening second = m.opening second := by
    cases opened : m.opening first with
    | error fault => exact ⟨(Tree.Grown.refl m).keeps, rfl⟩
    | ok found =>
        cases found with
        | none => exact ⟨(Tree.Grown.refl m).keeps, rfl⟩
        | some place =>
            obtain ⟨new, free⟩ := Tree.opening_ok opened
            exact ⟨Tree.keeps_put (Tree.new_place_ne_nil new) free, Tree.opening_beside beside opened⟩
  have there := Tree.make_above_again (made.symm ▸ Tree.make_above_congr beside.parent.symm t) rfl both.1
  unfold emitInto
  rw [there]
  simp only
  rw [both.2]

theorem emit_at_comm (beside : first.Beside second) (m : Tree) :
    (b.emitAt registry second (a.emitAt registry first m (m.opening first)).1 (m.opening second)).1.Alike
      (a.emitAt registry first (b.emitAt registry second m (m.opening second)).1 (m.opening first)).1 := by
  cases opened : m.opening first with
  | error fault => exact ⟨rfl, fun _ => rfl⟩
  | ok found =>
      cases found with
      | none => exact ⟨rfl, fun _ => rfl⟩
      | some place =>
          cases opened' : m.opening second with
          | error fault => exact ⟨rfl, fun _ => rfl⟩
          | ok found' =>
              cases found' with
              | none => exact ⟨rfl, fun _ => rfl⟩
              | some other =>
                  obtain ⟨new, _⟩ := Tree.opening_ok opened
                  obtain ⟨new', _⟩ := Tree.opening_ok opened'
                  have apart : place ≠ other := by
                    intro same
                    rw [← same] at new'
                    exact (Tree.new_place_beside beside new (Tree.Grown.refl m).keeps).2 new'
                  exact Tree.put_comm m (Tree.new_place_ne_nil new) (Tree.new_place_ne_nil new') apart

/-- Two emissions side by side end in the same way in either order, with the same files. -/
theorem emits_commute (beside : first.Beside second) (t : Tree) :
    SameFault t first (a.emitInto registry first t).2 (a.emitInto registry first (b.emitInto registry second t).1).2
      ∧ SameFault t second (b.emitInto registry second (a.emitInto registry first t).1).2
          (b.emitInto registry second t).2
      ∧ (b.emitInto registry second (a.emitInto registry first t).1).1.Alike
          (a.emitInto registry first (b.emitInto registry second t).1).1 := by
  cases made : t.makeAbove first with
  | mk m failure =>
      have made' : t.makeAbove second = (m, failure) := (Tree.make_above_congr beside.parent.symm t).trans made
      cases failure with
      | some refused =>
          -- whoever comes second is stuck where the first one was, though perhaps for another reason
          obtain ⟨up, reason⟩ := refused
          obtain ⟨again, stuck⟩ := Tree.make_above_fails_again made
          have stuck' : m.makeAbove second = (m, some (up, again)) :=
            (Tree.make_above_congr beside.parent.symm m).trans stuck
          have once : a.emitInto registry first t = (m, some (.io up reason)) := by
            unfold emitInto
            rw [made]
          have once' : b.emitInto registry second t = (m, some (.io up reason)) := by
            unfold emitInto
            rw [made']
          have twice : a.emitInto registry first m = (m, some (.io up again)) := by
            unfold emitInto
            rw [stuck]
          have twice' : b.emitInto registry second m = (m, some (.io up again)) := by
            unfold emitInto
            rw [stuck']
          rw [once, once', twice, twice']
          exact ⟨Or.inr ⟨up, reason, reason, again, by rw [made], rfl, rfl⟩,
            Or.inr ⟨up, reason, again, reason, by rw [made'], rfl, rfl⟩, rfl, fun _ => rfl⟩
      | none =>
          have once : a.emitInto registry first t = a.emitAt registry first m (m.opening first) := by
            unfold emitInto
            rw [made]
          have once' : b.emitInto registry second t = b.emitAt registry second m (m.opening second) := by
            unfold emitInto
            rw [made']
          rw [emit_into_beside beside made, emit_into_beside beside.symm made', once, once']
          exact ⟨Or.inl (a.emit_at_fault registry first _ _ _), Or.inl (b.emit_at_fault registry second _ _ _),
            emit_at_comm beside m⟩

end EmitRequest

end Accessors
