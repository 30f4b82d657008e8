import Accessors.File.Trail
import Accessors.Proofs.FileWrite
import Accessors.Proofs.PathPieces

/-!
Making directories. A tree in which directories are made keeps all it had and gains nothing but directories.
Where a path leads to a directory, nothing is made for it, and once the making for a path went well the path
leads to a directory. So making directories again does nothing more: it goes well exactly if it did before.
-/

namespace Accessors.File.Tree

variable {t u w : Tree} {p q up : Path} {place : Place}

/-! What a path leads to. -/

theorem find_ok {node : Node} :
    t.find? p = .ok node ↔ ∃ place, t.locate p = .ok place ∧ t.node? place = some node := by
  unfold find?
  cases t.locate p with
  | error fault => simp [bind, Except.bind]
  | ok place => cases found : t.node? place <;> simp [bind, Except.bind, found]

theorem is_directory_iff :
    t.isDirectory p = true ↔ ∃ place, t.locate p = .ok place ∧ t.node? place = some .directory := by
  rw [← find_ok]
  unfold isDirectory
  split
  · next found => simp [found]
  · next other =>
      constructor
      · intro absurdity
        exact absurd absurdity (by simp)
      · intro found
        exact absurd found other

theorem is_file_iff :
    t.isFile p = true ↔ ∃ place content, t.locate p = .ok place ∧ t.node? place = some (.file content) := by
  have found : t.isFile p = true ↔ ∃ content, t.find? p = .ok (.file content) := by
    unfold isFile
    split
    · next content there => simp [there]
    · next other =>
        constructor
        · intro absurdity
          exact absurd absurdity (by simp)
        · rintro ⟨content, there⟩
          exact absurd there (other content)
  rw [found]
  constructor
  · rintro ⟨content, there⟩
    obtain ⟨place, located, node⟩ := find_ok.mp there
    exact ⟨place, content, located, node⟩
  · rintro ⟨place, content, located, node⟩
    exact ⟨content, find_ok.mpr ⟨place, located, node⟩⟩

theorem read_text_ok {text : String} :
    t.readText p = .ok text ↔ ∃ place, t.locate p = .ok place ∧ t.node? place = some (.file (.text text)) := by
  rw [← find_ok]
  unfold readText
  cases found : t.find? p with
  | error fault => simp [bind, Except.bind]
  | ok node =>
      cases node with
      | file content => cases content <;> simp [bind, Except.bind]
      | _ => simp [bind, Except.bind]

theorem locate_iff :
    t.locate p = .ok place
      ↔ pathFault? p = none ∧ (Text.splitAt '/' p.text.toList).foldlM t.step (t.base p) = .ok place := by
  unfold locate
  cases pathFault? p <;> simp

/-- What a path is read from is told by its front. -/
theorem base_of_front {more : List Char} (front : p.text.toList = q.text.toList ++ more)
    (some : q.isEmpty = false) : t.base p = t.base q := by
  have first : p.isAbsolute = q.isAbsolute := by
    unfold Path.isAbsolute
    rw [front]
    cases chars : q.text.toList with
    | nil =>
        have text : q.text = "" := String.toList_inj.mp chars
        rw [Path.isEmpty, text] at some
        exact absurd some (by decide)
    | cons c rest => rfl
  unfold base
  rw [first]

theorem blank_onward (place : Place) (count : Nat) :
    (List.replicate count []).foldl Place.onward place = place := by
  induction count with
  | zero => rfl
  | succ count ih =>
      rw [List.replicate_succ, List.foldl_cons]
      exact ih

theorem blank_steps (here : t.node? place = some .directory) (count : Nat) :
    (List.replicate count []).foldlM t.step place = .ok place := by
  induction count with
  | zero => rfl
  | succ count ih =>
      have stays : t.step place [] = .ok place := by
        unfold step
        rw [here]
        rfl
      rw [List.replicate_succ, List.foldlM_cons, stays]
      exact ih

/-- Slashes at the end of a path to a directory lead nowhere else. -/
theorem locate_without_end_slash (here : t.node? place = some .directory) :
    t.locate p = .ok place ↔ pathFault? p = none ∧ t.locate (withoutEndSlash p) = .ok place := by
  obtain ⟨count, front, some⟩ := without_end_slash_shape p
  rw [locate_iff, locate_iff, front, split_at_slashes, List.foldlM_append]
  constructor
  · rintro ⟨sound, walked⟩
    have solid := some (path_fault_none.mp sound).2.1
    obtain ⟨middle, walk, blanks⟩ := Outcome.bind_ok.mp walked
    have same : place = middle := (steps_ok blanks).trans (blank_onward middle count)
    rw [← same, base_of_front front solid] at walk
    exact ⟨sound, path_fault_of_front sound front solid, walk⟩
  · rintro ⟨sound, _, walk⟩
    have solid := some (path_fault_none.mp sound).2.1
    rw [base_of_front front solid]
    exact ⟨sound, Outcome.bind_ok.mpr ⟨place, walk, blank_steps here count⟩⟩

/-- Under a path that leads somewhere no other place is given to a new entry. -/
theorem new_place_of_located (located : t.locate p = .ok place) :
    t.newPlace p = .ok none ∨ t.newPlace p = .ok (some place) := by
  obtain ⟨sound, walked⟩ := locate_iff.mp located
  obtain ⟨before, name, names⟩ : ∃ before name, Text.splitAt '/' p.text.toList = before ++ [name] :=
    ⟨_, _, (List.dropLast_concat_getLast (Text.splitAt_ne_nil '/' p.text.toList)).symm⟩
  rw [names, List.foldlM_append] at walked
  obtain ⟨above, walk, walked⟩ := Outcome.bind_ok.mp walked
  obtain ⟨reached, taken, finish⟩ := Outcome.bind_ok.mp walked
  have same : reached = place := Except.ok.inj finish
  rw [same] at taken
  obtain ⟨shape, directory⟩ := step_ok taken
  unfold newPlace
  rw [sound, names]
  simp only [List.dropLast_concat, walk, List.getLast?_concat, bind, Except.bind, directory]
  by_cases dots : name = [] ∨ name = ['.'] ∨ name = ['.', '.']
  · exact Or.inl (if_pos dots)
  · right
    have moves : ¬ (name = [] ∨ name = ['.']) := fun stays => dots (stays.imp_right Or.inl)
    have down : ¬ name = ['.', '.'] := fun up => dots (Or.inr (Or.inr up))
    have short : ¬ (String.ofList name).utf8ByteSize > longestName := by
      intro long
      unfold step at taken
      rw [directory] at taken
      simp only at taken
      rw [if_neg moves, if_neg down, if_pos long] at taken
      exact absurd taken (by simp)
    rw [above.onward_of_part dots] at shape
    rw [if_neg dots, if_neg short, shape]

/-! What making directories does to a tree. -/

/-- All that is in a tree is kept, and what is new is a directory. -/
structure Grown (t u : Tree) : Prop where
  cwd : u.cwd = t.cwd
  nodes : ∀ place, u.node? place = t.node? place ∨ t.node? place = none ∧ u.node? place = some .directory
  files : u.files = t.files

namespace Grown

theorem refl (t : Tree) : t.Grown t := ⟨rfl, fun _ => Or.inl rfl, rfl⟩

theorem trans (first : t.Grown u) (second : u.Grown w) : t.Grown w where
  cwd := second.cwd.trans first.cwd
  files := second.files.trans first.files
  nodes := by
    intro place
    rcases second.nodes place with same | ⟨free, made⟩
    · rw [same]
      exact first.nodes place
    · rcases first.nodes place with kept | ⟨_, here⟩
      · rw [kept] at free
        exact Or.inr ⟨free, made⟩
      · rw [here] at free
        exact absurd free (by simp)

theorem keeps (grown : t.Grown u) : t.Keeps u where
  cwd := grown.cwd
  directory := by
    intro place here
    rcases grown.nodes place with same | ⟨free, _⟩
    · rw [same]
      exact here
    · rw [free] at here
      exact absurd here (by simp)
  present := by
    intro place here
    rcases grown.nodes place with same | ⟨_, made⟩
    · rw [same]
      exact here
    · rw [made]
      rfl

end Grown

theorem put_entry_new {node : Node} {entries : List (Place × Node)} (free : entries.lookup place = none) :
    putEntry place node entries = entries ++ [(place, node)] := by
  induction entries with
  | nil => rfl
  | cons first rest ih =>
      obtain ⟨other, old⟩ := first
      rw [List.lookup_cons] at free
      split at free
      · exact absurd free (by simp)
      · next differs =>
          have apart : other ≠ place := fun same => absurd differs (by simp [same])
          rw [putEntry, if_neg apart, ih free]
          rfl

theorem grown_put_directory (below : place ≠ []) (free : t.node? place = none) :
    t.Grown (t.put place .directory) where
  cwd := rfl
  nodes := by
    intro other
    rw [node?_put t place other _ below]
    split
    · next same =>
        rw [same]
        exact Or.inr ⟨free, rfl⟩
    · exact Or.inl rfl
  files := by
    have missing : t.entries.lookup place = none := by
      unfold node? at free
      rw [if_neg below] at free
      exact free
    unfold files put
    rw [put_entry_new missing, List.filterMap_append]
    exact List.append_nil _

theorem make_directory_ok (made : t.makeDirectory p = .ok u) :
    ∃ place, pathFault? p = none ∧ t.newPlace (withoutEndSlash p) = .ok (some place)
      ∧ t.node? place = none ∧ u = t.put place .directory := by
  unfold makeDirectory at made
  split at made
  · exact absurd made (by simp)
  · next sound =>
      obtain ⟨found, new, made⟩ := Outcome.bind_ok.mp made
      split at made
      · next place =>
          split at made
          · exact absurd made (by simp)
          · next free => exact ⟨place, sound, new, free, (Except.ok.inj made).symm⟩
      · exact absurd made (by simp)

theorem grown_of_make_directory (made : t.makeDirectory p = .ok u) : t.Grown u := by
  obtain ⟨place, _, new, free, shape⟩ := make_directory_ok made
  rw [shape]
  exact grown_put_directory (new_place_ne_nil new) free

theorem grown_of_make_own (t : Tree) (p : Path) : t.Grown (t.makeOwn p).1 := by
  unfold makeOwn
  split
  · next made => exact grown_of_make_directory made
  · split <;> exact .refl t

theorem grown_of_rounds (rounds : Nat) (t : Tree) (p : Path) : t.Grown (makeRounds rounds t p).1 := by
  induction rounds generalizing t p with
  | zero => exact grown_of_make_own t p
  | succ rounds ih =>
      unfold makeRounds
      split
      · exact .refl t
      · split
        · next made => exact grown_of_make_directory made
        · split
          · exact .refl t
          · next up _ =>
              have first := ih t up
              split
              · next middle _ rest =>
                  rw [rest] at first
                  exact first
              · next middle rest =>
                  rw [rest] at first
                  exact first.trans (grown_of_make_own middle p)
        · split <;> exact .refl t

theorem make_directory_of_directory (there : t.isDirectory p = true) :
    t.makeDirectory p = .error .exists := by
  obtain ⟨place, located, here⟩ := is_directory_iff.mp there
  obtain ⟨sound, within⟩ := (locate_without_end_slash here).mp located
  unfold makeDirectory
  rw [sound]
  rcases new_place_of_located within with none | found
  · simp only [none, bind, Except.bind]
  · simp only [found, bind, Except.bind, here]

theorem is_directory_of_make_directory (made : t.makeDirectory p = .ok u) : u.isDirectory p = true := by
  obtain ⟨place, sound, new, free, shape⟩ := make_directory_ok made
  have here : u.node? place = some .directory := by
    rw [shape, node?_put t place place _ (new_place_ne_nil new), if_pos rfl]
  have located := locate_of_new_place new (grown_of_make_directory made).keeps (by rw [here]; rfl)
  exact is_directory_iff.mpr ⟨place, (locate_without_end_slash here).mpr ⟨sound, located⟩, here⟩

theorem is_directory_of_make_own (made : (t.makeOwn p).2 = none) : (t.makeOwn p).1.isDirectory p = true := by
  unfold makeOwn at made ⊢
  split
  · next here => exact is_directory_of_make_directory here
  · next fault failed =>
      rw [failed] at made
      simp only at made
      split
      · assumption
      · next absent =>
          rw [if_neg absent] at made
          exact absurd made (by simp)

/-! The directories above one. -/

theorem is_directory_root (root : p.text = "/") : t.isDirectory p = true := by
  have rooted : t.base p = [] := by
    unfold base Path.isAbsolute
    rw [root]
    rfl
  have here : t.node? [] = some .directory := if_pos rfl
  have sound : pathFault? p = none := by
    have shape : p = ⟨"/"⟩ := by rw [← root]
    rw [shape]
    decide
  have pieces : Text.splitAt '/' p.text.toList = List.replicate 2 [] := by
    rw [root]
    decide
  refine is_directory_iff.mpr ⟨[], locate_iff.mpr ⟨sound, ?_⟩, here⟩
  rw [pieces, rooted]
  exact blank_steps here 2

theorem is_directory_of_front {more : List (List Char)} (sound : pathFault? p = none)
    (walked : (Text.splitAt '/' p.text.toList ++ more).foldlM t.step (t.base p) = .ok place)
    (here : t.node? place = some .directory) : t.isDirectory p = true := by
  rw [List.foldlM_append] at walked
  obtain ⟨middle, walk, rest⟩ := Outcome.bind_ok.mp walked
  refine is_directory_iff.mpr ⟨middle, locate_iff.mpr ⟨sound, walk⟩, ?_⟩
  cases more with
  | nil =>
      rw [Except.ok.inj rest]
      exact here
  | cons name others =>
      rw [List.foldlM_cons] at rest
      obtain ⟨next, taken, _⟩ := Outcome.bind_ok.mp rest
      exact (step_ok taken).2

theorem parent_of_directory (there : t.isDirectory p = true) (above : p.parent? = some up) :
    up.isEmpty = true ∨ t.isDirectory up = true := by
  obtain ⟨place, located, here⟩ := is_directory_iff.mp there
  obtain ⟨sound, walked⟩ := locate_iff.mp located
  rcases Path.parent_shape above with empty | ⟨_, root⟩ | ⟨rest, front, _⟩
  · exact Or.inl empty
  · exact Or.inr (is_directory_root root)
  · cases some : up.isEmpty with
    | true => exact Or.inl rfl
    | false =>
        rw [base_of_front front some, front, Text.splitAt_append] at walked
        exact Or.inr (is_directory_of_front (path_fault_of_front sound front some) walked here)

theorem parent_of_make_directory (made : t.makeDirectory p = .ok u) (above : p.parent? = some up) :
    up.isEmpty = true ∨ t.isDirectory up = true := by
  obtain ⟨place, sound, new, _, _⟩ := make_directory_ok made
  obtain ⟨beneath, name, _, _, walked, ends, here, dots, _⟩ := new_place_some new
  obtain ⟨count, slashes, solid⟩ := without_end_slash_shape p
  rcases Path.parent_shape above with empty | ⟨_, root⟩ | ⟨rest, front, middle, last, fillers, parts, part, blank⟩
  · exact Or.inl empty
  · exact Or.inr (is_directory_root root)
  · cases some : up.isEmpty with
    | true => exact Or.inl rfl
    | false =>
        -- both texts of the pieces end in the same part, so the same stands in front of it
        obtain ⟨before, pieces⟩ := List.getLast?_eq_some_iff.mp ends
        have whole : before ++ name :: List.replicate count []
            = (Text.splitAt '/' up.text.toList ++ middle) ++ last :: fillers := by
          have both := congrArg (Text.splitAt '/') (slashes.symm.trans front)
          rw [split_at_slashes, pieces, Text.splitAt_append, parts] at both
          simpa using both
        have named : Split.isFiller name = false := by
          apply Bool.eq_false_iff.mpr
          intro filler
          rcases Bool.or_eq_true_iff.mp filler with empty | dot
          · exact dots (Or.inl (beq_iff_eq.mp empty))
          · exact dots (Or.inr (Or.inl (beq_iff_eq.mp dot)))
        have blanks : ∀ piece ∈ List.replicate count [], Split.isFiller piece = true := by
          intro piece member
          rw [List.eq_of_mem_replicate member]
          rfl
        have same := Path.last_part_unique whole named blanks part blank
        rw [pieces, List.dropLast_concat, same, ← base_of_front slashes (solid (path_fault_none.mp sound).2.1),
          base_of_front front some] at walked
        exact Or.inr (is_directory_of_front (path_fault_of_front sound front some) walked here)

/-! Making directories again. -/

theorem Keeps.locate (kept : t.Keeps u) (located : t.locate p = .ok place) : u.locate p = .ok place := by
  obtain ⟨sound, walked⟩ := locate_iff.mp located
  refine locate_iff.mpr ⟨sound, ?_⟩
  rw [kept.base p]
  exact kept.steps walked

theorem Keeps.is_directory (kept : t.Keeps u) (there : t.isDirectory p = true) : u.isDirectory p = true := by
  obtain ⟨place, located, here⟩ := is_directory_iff.mp there
  exact is_directory_iff.mpr ⟨place, kept.locate located, kept.directory place here⟩

theorem make_own_of_directory (there : t.isDirectory p = true) : t.makeOwn p = (t, none) := by
  unfold makeOwn
  rw [make_directory_of_directory there]
  simp only
  rw [if_pos there]

theorem rounds_of_directory (rounds : Nat) (there : t.isDirectory p = true) :
    makeRounds rounds t p = (t, none) := by
  cases rounds with
  | zero => exact make_own_of_directory there
  | succ rounds =>
      unfold makeRounds
      split
      · rfl
      · rw [make_directory_of_directory there]

theorem rounds_of_empty {rounds : Nat} (some : 1 ≤ rounds) (empty : p.isEmpty = true) :
    makeRounds rounds t p = (t, none) := by
  cases rounds with
  | zero => omega
  | succ rounds =>
      unfold makeRounds
      exact if_pos empty

theorem is_directory_of_rounds {rounds : Nat} (made : (makeRounds rounds t p).2 = none) :
    p.isEmpty = true ∨ (makeRounds rounds t p).1.isDirectory p = true := by
  cases rounds with
  | zero => exact Or.inr (is_directory_of_make_own made)
  | succ rounds =>
      unfold makeRounds at made ⊢
      split
      · next empty => exact Or.inl empty
      · next some =>
          rw [if_neg some] at made
          right
          split
          · next here => exact is_directory_of_make_directory here
          · next failed =>
              rw [failed] at made
              simp only at made
              split
              · next none =>
                  rw [none] at made
                  exact absurd made (by simp)
              · next up above =>
                  rw [above] at made
                  simp only at made
                  split
                  · next first =>
                      rw [first] at made
                      exact absurd made (by simp)
                  · next first =>
                      rw [first] at made
                      exact is_directory_of_make_own made
          · next fault failed other =>
              rw [other] at made
              simp only at made
              split
              · assumption
              · next absent =>
                  rw [if_neg absent] at made
                  exact absurd made (by simp)

/-- Where the making went well, making again does nothing. -/
theorem rounds_again {rounds : Nat} (some : p.isEmpty = false) (made : (makeRounds rounds t p).2 = none)
    (kept : (makeRounds rounds t p).1.Keeps u) (others : Nat) : makeRounds others u p = (u, none) := by
  rcases is_directory_of_rounds made with empty | there
  · rw [some] at empty
    exact absurd empty (by simp)
  · exact rounds_of_directory others (kept.is_directory there)

/-- A path at which a directory is refused is stuck, with all above it made. -/
theorem stuck_of_own {rounds : Nat} {fault : Fault} (solid : p.isEmpty = false)
    (refused : t.makeDirectory p = .error fault) (absent : t.isDirectory p = false)
    (above : fault = .notFound → ∀ up, p.parent? = some up → makeRounds rounds t up = (t, none)) :
    ∃ other, makeRounds (rounds + 1) t p = (t, some other) := by
  have own : t.makeOwn p = (t, some fault) := by
    unfold makeOwn
    rw [refused]
    exact if_neg (by rw [absent]; simp)
  unfold makeRounds
  rw [if_neg (by rw [solid]; simp), refused]
  split
  · next made => exact absurd made (by simp)
  · next missing =>
      split
      · exact ⟨.noParent, rfl⟩
      · next up parent =>
          rw [above (Except.error.inj missing) up parent]
          exact ⟨fault, own⟩
  · next other _ _ => exact ⟨other, if_neg (by rw [absent]; simp)⟩

/-- A path is stuck where its parent is: a directory there would stand in one at the parent. -/
theorem stuck_of_parent {rounds : Nat} {fault : Fault} (solid : p.isEmpty = false) (some : 1 ≤ rounds)
    (above : p.parent? = .some up) (stuck : makeRounds rounds t up = (t, .some fault)) :
    ∃ other, makeRounds (rounds + 1) t p = (t, .some other) := by
  have absent : ¬ (up.isEmpty = true ∨ t.isDirectory up = true) := by
    rintro (empty | there)
    · rw [rounds_of_empty some empty] at stuck
      exact absurd stuck (by simp)
    · rw [rounds_of_directory rounds there] at stuck
      exact absurd stuck (by simp)
  unfold makeRounds
  rw [if_neg (by rw [solid]; simp)]
  split
  · next made => exact absurd (parent_of_make_directory made above) absent
  · rw [above]
    simp only [stuck]
    exact ⟨fault, rfl⟩
  · next other _ _ => exact ⟨other, if_neg fun there => absent (parent_of_directory there above)⟩

/-- Where the making failed it fails again, although what was made before it failed is there by then. -/
theorem rounds_fail_again {rounds : Nat} {fault : Fault} (enough : p.text.length < rounds)
    (failed : makeRounds rounds t p = (u, some fault)) : ∃ other, makeRounds rounds u p = (u, some other) := by
  -- by induction on the rounds, which outlast the path since every parent is shorter
  induction rounds generalizing t u p fault with
  | zero => omega
  | succ rounds ih =>
      unfold makeRounds at failed
      split at failed
      · exact absurd failed (by simp)
      · next some =>
          have solid : p.isEmpty = false := Bool.eq_false_iff.mpr some
          split at failed
          · exact absurd failed (by simp)
          · next missing =>
              -- the path hangs on its parent: there is none, or it fails first, or it is made in vain
              split at failed
              · next none =>
                  obtain ⟨rfl, _⟩ := Prod.mk.inj failed
                  have absent : t.isDirectory p = false := by
                    apply Bool.eq_false_iff.mpr
                    intro there
                    rw [make_directory_of_directory there] at missing
                    exact absurd missing (by simp)
                  apply stuck_of_own solid missing absent
                  intro _ up above
                  exact absurd (none.symm.trans above) (by simp)
              · next up above =>
                  have shorter := Path.parent_length above
                  split at failed
                  · next first =>
                      obtain ⟨rfl, _⟩ := Prod.mk.inj failed
                      obtain ⟨other, stuck⟩ := ih (by omega) first
                      exact stuck_of_parent solid (by omega) above stuck
                  · next middle first =>
                      -- by now the parent is there, so only the path itself is tried again
                      have again : makeRounds rounds middle up = (middle, .none) := by
                        cases empty : up.isEmpty with
                        | true => exact rounds_of_empty (by omega) empty
                        | false =>
                            have kept : (makeRounds rounds t up).1.Keeps middle := by
                              rw [first]
                              exact (Grown.refl middle).keeps
                            exact rounds_again empty (by rw [first]) kept rounds
                      unfold makeOwn at failed
                      split at failed
                      · exact absurd failed (by simp)
                      · next refused =>
                          split at failed
                          · exact absurd failed (by simp)
                          · next absent =>
                              obtain ⟨rfl, _⟩ := Prod.mk.inj failed
                              apply stuck_of_own solid refused (Bool.eq_false_iff.mpr absent)
                              intro _ other same
                              rw [← Option.some.inj (above.symm.trans same)]
                              exact again
          · next other refused found =>
              split at failed
              · exact absurd failed (by simp)
              · next absent =>
                  obtain ⟨rfl, _⟩ := Prod.mk.inj failed
                  apply stuck_of_own solid found (Bool.eq_false_iff.mpr absent)
                  intro missing
                  exact absurd missing refused

end Accessors.File.Tree
