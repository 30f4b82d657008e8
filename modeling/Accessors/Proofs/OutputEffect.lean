import Accessors.Generation.Emission
import Accessors.Proofs.Directories
import Accessors.Proofs.Emitted

/-!
What putting out a file does to the other files. Directories are made above it, the file is opened, and text is
written into it. Nothing that was there goes away, no other file changes, and whether the file can be opened
does not depend on the files beside it.
-/

namespace Accessors

namespace File.Tree

variable {t u : Tree} {p output : Path} {place : Place}

/-- Makes the directories above a path that are missing. -/
def makeAbove (t : Tree) (p : Path) : Tree × Option (Path × Fault) :=
  match p.parent?.filter fun up => !up.isEmpty with
  | some up =>
      let (t, fault) := t.makeDirectories up
      (t, fault.map fun fault => (up, fault))
  | none => (t, none)

/-- Where a file can be written to: its place, or nowhere for a device that takes no byte. -/
def opening (t : Tree) (p : Path) : Except Fault (Option Place) := do
  match ← t.newPlace p with
  | some place =>
      match t.node? place with
      | some .directory => .error .isDirectory
      | some .fullDevice => .ok none
      | _ => .ok (some place)
  | none => .error .isDirectory

theorem grown_of_make_above (t : Tree) (p : Path) : t.Grown (t.makeAbove p).1 := by
  unfold makeAbove
  split
  · next up _ => exact grown_of_rounds (up.text.length + 1) t up
  · exact .refl t

theorem opening_ok (opened : t.opening p = .ok (some place)) :
    t.newPlace p = .ok (some place) ∧ t.node? place ≠ some .directory := by
  unfold opening at opened
  obtain ⟨found, new, opened⟩ := Outcome.bind_ok.mp opened
  split at opened
  · next other =>
      split at opened
      · exact absurd opened (by simp)
      · exact absurd (Except.ok.inj opened) (by simp)
      · next noDirectory _ =>
          have same := Option.some.inj (Except.ok.inj opened)
          rw [same] at new noDirectory
          exact ⟨new, noDirectory⟩
  · exact absurd opened (by simp)

theorem target_of_new_place (new : t.newPlace p = .ok (some place)) : place = t.target p := by
  obtain ⟨above, name, _, shape, walked, ends, _, dots, _⟩ := new_place_some new
  obtain ⟨before, names⟩ := List.getLast?_eq_some_iff.mp ends
  unfold target
  rw [names, List.dropLast_concat] at walked
  rw [names, List.foldl_append, ← steps_ok walked, shape]
  exact (above.onward_of_part dots).symm

theorem target_congr (cwd : u.cwd = t.cwd) (p : Path) : u.target p = t.target p := by
  unfold target base
  rw [cwd]

theorem put_entry_again {first second : Node} (entries : List (Place × Node)) :
    putEntry place second (putEntry place first entries) = putEntry place second entries := by
  induction entries with
  | nil => simp [putEntry]
  | cons entry rest ih =>
      obtain ⟨other, old⟩ := entry
      by_cases same : other = place
      · simp [putEntry, same]
      · simp [putEntry, same, ih]

theorem put_again (t : Tree) (place : Place) (first second : Node) :
    (t.put place first).put place second = t.put place second := by
  unfold put
  rw [put_entry_again]

theorem put_entry_same {node : Node} {entries : List (Place × Node)} (here : entries.lookup place = some node) :
    putEntry place node entries = entries := by
  induction entries with
  | nil => exact absurd here (by simp)
  | cons entry rest ih =>
      obtain ⟨other, old⟩ := entry
      by_cases same : other = place
      · rw [same, List.lookup_cons_self] at here
        rw [putEntry, if_pos same, Option.some.inj here, same]
      · have differs : (place == other) = false := beq_false_of_ne (Ne.symm same)
        rw [List.lookup_cons, differs] at here
        rw [putEntry, if_neg same, ih here]

theorem put_same {node : Node} (below : place ≠ []) (here : t.node? place = some node) : t.put place node = t := by
  unfold node? at here
  rw [if_neg below] at here
  unfold put
  rw [put_entry_same here]

theorem files_put (t : Tree) (place : Place) (content : Content) :
    (t.put place (.file content)).files.filter (fun file => file.1 ≠ place)
      = t.files.filter fun file => file.1 ≠ place := by
  unfold files put
  simp only
  -- by induction on the entries, of which at most one is at the place: the new file is filtered out with it
  induction t.entries with
  | nil => simp [putEntry]
  | cons entry rest ih =>
      obtain ⟨other, old⟩ := entry
      by_cases same : other = place
      · subst same
        cases old <;> simp [putEntry]
      · cases old <;> simpa [putEntry, same] using ih

/-- Where directories were made above a path, none is missing as long as they are kept. -/
theorem make_above_again {fault : Option (Path × Fault)} {m : Tree} (made : t.makeAbove p = (m, fault))
    (well : fault = none) (kept : m.Keeps u) : u.makeAbove p = (u, none) := by
  unfold makeAbove at made ⊢
  cases above : p.parent?.filter fun up => !up.isEmpty with
  | none => rfl
  | some up =>
      have some : up.isEmpty = false := by simpa using (Option.filter_eq_some_iff.mp above).2
      rw [above] at made
      simp only at made ⊢
      obtain ⟨trees, faults⟩ := Prod.mk.inj made
      have done : (t.makeDirectories up).2 = .none := by
        rw [well] at faults
        simpa using faults
      rw [← trees] at kept
      have again : u.makeDirectories up = (u, .none) := rounds_again some done kept _
      rw [again]
      rfl

theorem new_place_kept (new : t.newPlace p = .ok (some place)) (kept : t.Keeps u) :
    u.newPlace p = .ok (some place) := by
  obtain ⟨above, name, sound, shape, walked, ends, here, dots, short⟩ := new_place_some new
  unfold newPlace
  rw [sound]
  simp only
  rw [kept.base p, kept.steps walked]
  simp only [bind, Except.bind, kept.directory above here, ends]
  rw [if_neg dots, if_neg short, shape]

/-! All but the output is kept. -/

/-- The files after an output was put out, or after that was begun: nothing goes away, and away from the
output only directories are new. -/
structure Written (t u : Tree) (output : Path) : Prop where
  keeps : t.Keeps u
  elsewhere : ∀ place, place ≠ t.target output →
    u.node? place = t.node? place ∨ t.node? place = none ∧ u.node? place = some .directory
  files : u.files.filter (fun file => file.1 ≠ t.target output) = t.files.filter fun file => file.1 ≠ t.target output

theorem Grown.written (grown : t.Grown u) (output : Path) : t.Written u output where
  keeps := grown.keeps
  elsewhere := fun place _ => grown.nodes place
  files := by rw [grown.files]

/-- What putting out a file may change: the place of the file, and the directories that are made above it. -/
def Disturbs (t : Tree) (output : Path) (place : Place) : Prop :=
  place = t.target output ∨ (t.makeAbove output).1.node? place ≠ t.node? place

instance (t : Tree) (output : Path) (place : Place) : Decidable (t.Disturbs output place) :=
  inferInstanceAs (Decidable (_ ∨ _))

theorem written_of_put {content : Content} (opened : (t.makeAbove output).1.opening output = .ok (some place)) :
    t.Written ((t.makeAbove output).1.put place (.file content)) output := by
  have grown := grown_of_make_above t output
  obtain ⟨new, free⟩ := opening_ok opened
  have target : place = t.target output := by
    rw [target_of_new_place new, target_congr grown.cwd]
  have below := new_place_ne_nil new
  have put := @keeps_put _ _ content below free
  exact {
    keeps := grown.keeps.trans put
    elsewhere := by
      intro other apart
      rw [node?_put _ place other _ below, if_neg (by rw [target]; exact apart)]
      exact grown.nodes other
    files := by
      rw [← target, files_put, grown.files] }

end File.Tree

namespace EmitRequest

open File (Path Tree Fault)

variable {r : EmitRequest} {registry : Registry} {output : Path} {t u : Tree}

/-- What emission into a file gives for a place to write to: the file there if it is no device, and the fault. -/
def emitAt (r : EmitRequest) (registry : Registry) (output : Path) (t : Tree) :
    Except Fault (Option File.Place) → Tree × Option Error
  | .error fault => (t, some (.io output fault))
  | .ok none => (t, faultIn output (r.emit registry (.refusing 0)))
  | .ok (some place) =>
      let e := r.emit registry (.keeping none "")
      (t.put place (.file (.text e.sink.text)), faultIn output e)

/-- Emission into a file that the directories above are there for. -/
def fill (r : EmitRequest) (registry : Registry) (output : Path) (t : Tree) :
    Tree × List (Nat × FieldDescriptor) × Option Error :=
  match t.create output with
  | .error fault => (t, [], some (.io output fault))
  | .ok (t, place) =>
      match t.node? place with
      | some .fullDevice =>
          let e := r.emit registry (.refusing 0)
          (t, e.seen, faultIn output e)
      | _ =>
          let e := r.emit registry (.keeping none "")
          (t.put place (.file (.text e.sink.text)), e.seen, faultIn output e)

theorem fill_eq (r : EmitRequest) (registry : Registry) (output : Path) (t : Tree) :
    Prod.map id Prod.snd (r.fill registry output t) = r.emitAt registry output t (t.opening output) := by
  unfold fill Tree.create Tree.opening
  cases new : t.newPlace output with
  | error fault => rfl
  | ok found =>
      cases found with
      | none => rfl
      | some place =>
          have below := Tree.new_place_ne_nil new
          have made : (t.put place (.file (.text ""))).node? place = some (.file (.text "")) := by
            rw [Tree.node?_put t place place _ below, if_pos rfl]
          simp only [bind, Except.bind]
          cases here : t.node? place with
          | none => simp only [made, Tree.put_again]; rfl
          | some node =>
              cases node with
              | directory => rfl
              | file content => simp only [made, Tree.put_again]; rfl
              | fullDevice => simp only [here]; rfl

/-- Emission into a file, as the files after it and the fault: the directories above it are made, it is
opened, and text is written. -/
def emitInto (r : EmitRequest) (registry : Registry) (output : Path) (t : Tree) : Tree × Option Error :=
  match t.makeAbove output with
  | (u, some (up, fault)) => (u, some (.io up fault))
  | (u, none) => r.emitAt registry output u (u.opening output)

theorem emit_file_eq (r : EmitRequest) (registry : Registry) (output : Path) (t : Tree) :
    Prod.map id Prod.snd (r.emitFile registry output t) = r.emitInto registry output t := by
  unfold emitFile emitInto Tree.makeAbove
  cases output.parent?.filter fun up => !up.isEmpty with
  | none => exact r.fill_eq registry output t
  | some up =>
      cases made : t.makeDirectories up with
      | mk middle fault =>
          cases fault with
          | none =>
              simp only [made]
              exact r.fill_eq registry output middle
          | some fault =>
              simp only [made]
              rfl

/-- The files after an emission, however far it came: the directories above its file, and the file if it could be
opened. -/
theorem emit_tree_cases (r : EmitRequest) (registry : Registry) (output : Path) (t : Tree) :
    (r.emitInto registry output t).1 = (t.makeAbove output).1
      ∨ ∃ place text, (t.makeAbove output).1.opening output = .ok (some place)
          ∧ (r.emitInto registry output t).1 = (t.makeAbove output).1.put place (.file (.text text)) := by
  unfold emitInto
  cases t.makeAbove output with
  | mk u fault =>
      cases fault with
      | some refused => exact Or.inl rfl
      | none =>
          simp only
          cases opened : u.opening output with
          | error fault => exact Or.inl rfl
          | ok found =>
              cases found with
              | none => exact Or.inl rfl
              | some place => exact Or.inr ⟨place, _, rfl, rfl⟩

theorem written_of_emit (r : EmitRequest) (registry : Registry) (output : Path) (t : Tree) :
    t.Written (r.emitInto registry output t).1 output := by
  rcases r.emit_tree_cases registry output t with made | ⟨place, text, opened, put⟩
  · rw [made]
    exact (Tree.grown_of_make_above t output).written output
  · rw [put]
    exact Tree.written_of_put opened

/-- What an emission changes is the file that its path leads to, or a directory that was made. -/
theorem change_of_emit {place : File.Place}
    (changed : (r.emitInto registry output t).1.node? place ≠ t.node? place) :
    ((∃ text, (r.emitInto registry output t).1.node? place = some (.file (.text text)))
        ∧ (r.emitInto registry output t).1.locate output = .ok place)
      ∨ (t.makeAbove output).1.node? place ≠ t.node? place
          ∧ (r.emitInto registry output t).1.node? place = (t.makeAbove output).1.node? place := by
  rcases r.emit_tree_cases registry output t with made | ⟨opened, text, opening, put⟩
  · rw [made] at changed ⊢
    exact Or.inr ⟨changed, rfl⟩
  · obtain ⟨new, free⟩ := Tree.opening_ok opening
    have below := Tree.new_place_ne_nil new
    rw [put] at changed ⊢
    have nodes := Tree.node?_put (t.makeAbove output).1 opened place (.file (.text text)) below
    by_cases same : place = opened
    · rw [if_pos same, same] at nodes
      rw [same]
      exact Or.inl ⟨⟨text, nodes⟩, Tree.locate_of_new_place new (Tree.keeps_put below free) (by rw [nodes]; rfl)⟩
    · rw [if_neg same] at nodes
      rw [nodes] at changed ⊢
      exact Or.inr ⟨changed, rfl⟩

theorem disturbs_of_emit {place : File.Place}
    (changed : (r.emitInto registry output t).1.node? place ≠ t.node? place) : t.Disturbs output place := by
  rcases change_of_emit changed with ⟨_, located⟩ | ⟨made, _⟩
  · rw [Tree.locate_ok located, Tree.target_congr (written_of_emit r registry output t).keeps.cwd]
    exact Or.inl rfl
  · exact Or.inr made

theorem emit_into_done (done : (r.emitInto registry output t).2 = none) :
    ∃ m place, t.makeAbove output = (m, none) ∧ m.opening output = .ok (some place)
      ∧ (r.emitInto registry output t).1
        = m.put place (.file (.text (r.emit registry (.keeping none "")).sink.text))
      ∧ faultIn output (r.emit registry (.keeping none "")) = none := by
  unfold emitInto at done ⊢
  cases made : t.makeAbove output with
  | mk m fault =>
      rw [made] at done
      cases fault with
      | some refused => exact absurd done (by simp)
      | none =>
          simp only at done ⊢
          cases opened : m.opening output with
          | error fault =>
              rw [opened] at done
              exact absurd done (by simp [emitAt])
          | ok found =>
              rw [opened] at done
              cases found with
              | none => exact absurd done (emit_refusing output)
              | some place => exact ⟨m, place, rfl, opened, rfl, done⟩

theorem is_file_of_done (done : (r.emitInto registry output t).2 = none) :
    (r.emitInto registry output t).1.isFile output = true := by
  obtain ⟨m, place, _, opened, put, _⟩ := emit_into_done done
  obtain ⟨new, free⟩ := Tree.opening_ok opened
  have below := Tree.new_place_ne_nil new
  have here := Tree.node?_put m place place (.file (.text (r.emit registry (.keeping none "")).sink.text)) below
  rw [if_pos rfl] at here
  rw [put]
  exact Tree.is_file_iff.mpr
    ⟨place, _, Tree.locate_of_new_place new (Tree.keeps_put below free) (by rw [here]; rfl), here⟩

end EmitRequest

end Accessors
