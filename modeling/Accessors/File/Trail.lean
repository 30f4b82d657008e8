import Accessors.File.Tree

/-!
The way of a path. Nothing in a tree leads anywhere but down by a name and up by two dots, so the place that a
path names is told by its text and the working directory alone, whether or not anything is there. What a path
leads to depends on nothing but what is found on its way.
-/

namespace Accessors.File

/-- Where a piece of a path leads from a place. -/
def Place.onward (place : Place) (name : List Char) : Place :=
  if name = [] ∨ name = ['.'] then place
  else if name = ['.', '.'] then place.up
  else place ++ [name]

theorem Place.onward_of_part (place : Place) {name : List Char}
    (part : ¬ (name = [] ∨ name = ['.'] ∨ name = ['.', '.'])) : place.onward name = place ++ [name] := by
  have moves : ¬ (name = [] ∨ name = ['.']) := fun stays => part (stays.imp_right Or.inl)
  have down : ¬ name = ['.', '.'] := fun up => part (Or.inr (Or.inr up))
  unfold onward
  rw [if_neg moves, if_neg down]

/-- The places that pieces of a path lead over, the first and the last among them. -/
def Place.along (place : Place) : List (List Char) → List Place
  | [] => [place]
  | name :: rest => place :: (place.onward name).along rest

namespace Tree

/-- The place that a path names. -/
def target (t : Tree) (p : Path) : Place :=
  (Text.splitAt '/' p.text.toList).foldl Place.onward (t.base p)

/-- The places on the way of a path, from where its reading begins to the place that it names. -/
def trail (t : Tree) (p : Path) : List Place :=
  (t.base p).along (Text.splitAt '/' p.text.toList)

variable {t u : Tree} {p : Path} {place next : Place} {name : List Char} {names : List (List Char)}

theorem step_ok (taken : t.step place name = .ok next) :
    next = place.onward name ∧ t.node? place = some .directory := by
  unfold step at taken
  unfold Place.onward
  split at taken
  · next here =>
      refine ⟨?_, here⟩
      split at taken
      · next stays =>
          rw [if_pos stays]
          exact (Except.ok.inj taken).symm
      · next moves =>
          rw [if_neg moves]
          split at taken
          · next up =>
              rw [if_pos up]
              exact (Except.ok.inj taken).symm
          · next down =>
              rw [if_neg down]
              split at taken
              · exact absurd taken (by simp)
              · split at taken
                · exact (Except.ok.inj taken).symm
                · exact absurd taken (by simp)
  · exact absurd taken (by simp)
  · exact absurd taken (by simp)

theorem steps_ok (taken : names.foldlM t.step place = .ok next) : next = names.foldl Place.onward place := by
  induction names generalizing place with
  | nil => exact (Except.ok.inj taken).symm
  | cons name rest ih =>
      rw [List.foldlM_cons] at taken
      cases first : t.step place name with
      | error fault => exact absurd taken (by simp [first, bind, Except.bind])
      | ok middle =>
          rw [first] at taken
          rw [List.foldl_cons, ← (step_ok first).1]
          exact ih taken

/-- A path leads to the place that it names, or to none. -/
theorem locate_ok (located : t.locate p = .ok place) : place = t.target p := by
  unfold locate at located
  split at located
  · exact absurd located (by simp)
  · exact steps_ok located

theorem head_mem_along (place : Place) (names : List (List Char)) : place ∈ place.along names := by
  cases names <;> simp [Place.along]

theorem steps_congr (same : ∀ q ∈ place.along names, u.node? q = t.node? q) :
    names.foldlM u.step place = names.foldlM t.step place
      ∧ u.node? (names.foldl Place.onward place) = t.node? (names.foldl Place.onward place) := by
  -- by induction on the pieces: a step asks for the place it starts from and the place it leads to
  induction names generalizing place with
  | nil => exact ⟨rfl, same place List.mem_cons_self⟩
  | cons name rest ih =>
      have later : ∀ q ∈ (place.onward name).along rest, u.node? q = t.node? q :=
        fun q member => same q (List.mem_cons_of_mem place member)
      obtain ⟨walk, finish⟩ := ih later
      have here := same place List.mem_cons_self
      have there := later (place.onward name) (head_mem_along _ rest)
      have first : u.step place name = t.step place name := by
        unfold step
        unfold Place.onward at there
        rw [here]
        split
        · split
          · rfl
          · next moves =>
              split
              · rfl
              · next down =>
                  rw [if_neg moves, if_neg down] at there
                  rw [there]
        · rfl
        · rfl
      refine ⟨?_, finish⟩
      rw [List.foldlM_cons, List.foldlM_cons, first]
      cases taken : t.step place name with
      | error fault => rfl
      | ok middle =>
          rw [(step_ok taken).1]
          exact walk

/-- What a path leads to depends on its way only. -/
theorem find_congr (cwd : u.cwd = t.cwd) (same : ∀ place ∈ t.trail p, u.node? place = t.node? place) :
    u.find? p = t.find? p := by
  have base : u.base p = t.base p := by
    unfold base
    rw [cwd]
  obtain ⟨walk, finish⟩ := steps_congr same
  unfold find? locate
  rw [base]
  split
  · rfl
  · rw [walk]
    cases taken : (Text.splitAt '/' p.text.toList).foldlM t.step (t.base p) with
    | error fault => rfl
    | ok place =>
        rw [← steps_ok taken] at finish
        simp only [bind, Except.bind, finish]

end Tree

end Accessors.File
