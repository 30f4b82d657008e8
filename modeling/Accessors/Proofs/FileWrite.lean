import Accessors.File.Tree
import Accessors.Proofs.Outcome

/-!
A file that was created and written is found under the path it was created by, with the text that was written
last. Reading the path takes the same steps as creating did, because writing a file takes no directory away and
adds nothing but the file.
-/

namespace Accessors.File.Tree

variable {t u : Tree} {p : Path} {place : Place}

/-- All that is in a tree is also in another, and the directories are directories there. -/
structure Keeps (t u : Tree) : Prop where
  cwd : u.cwd = t.cwd
  directory : ∀ place, t.node? place = some .directory → u.node? place = some .directory
  present : ∀ place, (t.node? place).isSome = true → (u.node? place).isSome = true

theorem Keeps.trans {w : Tree} (first : t.Keeps u) (second : u.Keeps w) : t.Keeps w where
  cwd := second.cwd.trans first.cwd
  directory := fun place here => second.directory place (first.directory place here)
  present := fun place here => second.present place (first.present place here)

theorem Keeps.base (kept : t.Keeps u) (p : Path) : u.base p = t.base p := by
  unfold Tree.base
  rw [kept.cwd]

/-- A step that can be taken in a tree can be taken where all of the tree is kept. -/
theorem Keeps.step (kept : t.Keeps u) {first last : Place} {name : List Char}
    (taken : t.step first name = .ok last) : u.step first name = .ok last := by
  unfold Tree.step at taken
  split at taken
  · next here =>
      unfold Tree.step
      rw [kept.directory first here]
      simp only
      split at taken
      · next stays =>
          rw [if_pos stays]
          exact taken
      · next moves =>
          rw [if_neg moves]
          split at taken
          · next up =>
              rw [if_pos up]
              exact taken
          · next down =>
              rw [if_neg down]
              split at taken
              · exact absurd taken (by simp)
              · next short =>
                  rw [if_neg short]
                  split at taken
                  · next node found =>
                      have there := kept.present (first ++ [name]) (by rw [found]; rfl)
                      obtain ⟨other, found⟩ := Option.isSome_iff_exists.mp there
                      rw [found]
                      exact taken
                  · exact absurd taken (by simp)
  · exact absurd taken (by simp)
  · exact absurd taken (by simp)

theorem Keeps.steps (kept : t.Keeps u) {names : List (List Char)} {first last : Place}
    (taken : names.foldlM t.step first = .ok last) : names.foldlM u.step first = .ok last := by
  induction names generalizing first with
  | nil => exact taken
  | cons name rest ih =>
      rw [List.foldlM_cons] at taken ⊢
      obtain ⟨middle, next, others⟩ := Outcome.bind_ok.mp taken
      exact Outcome.bind_ok.mpr ⟨middle, kept.step next, ih others⟩

/-- Putting a file where there is no directory keeps the tree. -/
theorem keeps_put {content : Content} (below : place ≠ []) (free : t.node? place ≠ some .directory) :
    t.Keeps (t.put place (.file content)) where
  cwd := rfl
  directory := by
    intro other here
    rw [node?_put t place other _ below]
    have elsewhere : other ≠ place := by
      intro same
      rw [same] at here
      exact free here
    rw [if_neg elsewhere]
    exact here
  present := by
    intro other here
    rw [node?_put t place other _ below]
    split
    · rfl
    · exact here

/-- What the place of a new entry is: a name in a directory that the path leads to. -/
theorem new_place_some (found : t.newPlace p = .ok (some place)) :
    ∃ above name, pathFault? p = none ∧ place = above ++ [name]
      ∧ (Text.splitAt '/' p.text.toList).dropLast.foldlM t.step (t.base p) = .ok above
      ∧ (Text.splitAt '/' p.text.toList).getLast? = some name ∧ t.node? above = some .directory
      ∧ ¬ (name = [] ∨ name = ['.'] ∨ name = ['.', '.'])
      ∧ ¬ (String.ofList name).utf8ByteSize > longestName := by
  unfold newPlace at found
  split at found
  · exact absurd found (by simp)
  · next sound =>
      obtain ⟨above, walked, found⟩ := Outcome.bind_ok.mp found
      split at found
      · next name here last =>
          split at found
          · exact absurd found (by simp)
          · next solid =>
              split at found
              · exact absurd found (by simp)
              · next short =>
                  have shape := Option.some.inj (Except.ok.inj found)
                  exact ⟨above, name, sound, shape.symm, walked, last, here, solid, short⟩
      · exact absurd found (by simp)
      · exact absurd found (by simp)

/-- No new entry is the root. -/
theorem new_place_ne_nil (found : t.newPlace p = .ok (some place)) : place ≠ [] := by
  obtain ⟨above, name, _, shape, _⟩ := new_place_some found
  rw [shape]
  simp

/-- A path leads to the place its new entry was given, once something is there. -/
theorem locate_of_new_place (found : t.newPlace p = .ok (some place)) (kept : t.Keeps u)
    (there : (u.node? place).isSome = true) : u.locate p = .ok place := by
  obtain ⟨above, name, sound, shape, walked, last, here, solid, short⟩ := new_place_some found
  have names : Text.splitAt '/' p.text.toList = (Text.splitAt '/' p.text.toList).dropLast ++ [name] := by
    obtain ⟨before, whole⟩ := List.getLast?_eq_some_iff.mp last
    rw [whole, List.dropLast_concat]
  have final : u.step above name = .ok place := by
    unfold Tree.step
    rw [kept.directory above here]
    have moves : ¬ (name = [] ∨ name = ['.']) := fun dots => solid (dots.imp_right Or.inl)
    have down : ¬ name = ['.', '.'] := fun dots => solid (Or.inr (Or.inr dots))
    simp only
    rw [if_neg moves, if_neg down, if_neg short, ← shape]
    obtain ⟨node, node_there⟩ := Option.isSome_iff_exists.mp there
    rw [node_there]
  unfold locate
  rw [sound]
  simp only
  rw [names, List.foldlM_append, kept.base p]
  refine Outcome.bind_ok.mpr ⟨above, kept.steps walked, ?_⟩
  rw [List.foldlM_cons, final]
  rfl

/-- What creating a file answers: its place, at which there is no directory, and a tree that keeps what was
there. -/
theorem create_ok (created : t.create p = .ok (u, place)) :
    t.newPlace p = .ok (some place) ∧ t.node? place ≠ some .directory
      ∧ (u = t ∧ t.node? place = some .fullDevice ∨ u = t.put place (.file (.text ""))) := by
  unfold create at created
  obtain ⟨found, new, created⟩ := Outcome.bind_ok.mp created
  split at created
  · next other =>
      split at created
      · exact absurd created (by simp)
      · next device =>
          obtain ⟨trees, places⟩ := Prod.mk.inj (Except.ok.inj created)
          rw [places] at device new
          exact ⟨new, by simp [device], Or.inl ⟨trees.symm, device⟩⟩
      · next noDirectory _ =>
          obtain ⟨trees, places⟩ := Prod.mk.inj (Except.ok.inj created)
          rw [places] at trees new noDirectory
          exact ⟨new, noDirectory, Or.inr trees.symm⟩
  · exact absurd created (by simp)

/-- A file that was created by a path and then written is read by that path. -/
theorem read_text_of_create {text : String} (created : t.create p = .ok (u, place))
    (device : u.node? place ≠ some .fullDevice) :
    (u.put place (.file (.text text))).readText p = .ok text := by
  obtain ⟨new, free, made⟩ := create_ok created
  have below := new_place_ne_nil new
  have put : u = t.put place (.file (.text "")) := by
    rcases made with ⟨same, full⟩ | put
    · rw [same] at device
      exact absurd full device
    · exact put
  have first : t.Keeps u := by
    rw [put]
    exact keeps_put below free
  have second : u.Keeps (u.put place (.file (.text text))) := by
    apply keeps_put below
    rw [put, node?_put t place place _ below]
    simp
  have node : (u.put place (.file (.text text))).node? place = some (.file (.text text)) := by
    rw [node?_put u place place _ below, if_pos rfl]
  have located := locate_of_new_place new (first.trans second) (by rw [node]; rfl)
  unfold readText find?
  rw [located]
  simp only [bind, Except.bind, node]

end Accessors.File.Tree
