import Accessors.File.Reading
import Accessors.Proofs.OutputEffect

/-!
Looks that are settled. A file that was read is there, and a file that was probed in vain is missing in a
directory that is there. Neither answer changes when an output is put out to another place: nothing goes away,
and what is new elsewhere is directories. A reading settles its looks if all of them are settled once it
succeeds, and readings that settle their looks can be put together.
-/

namespace Accessors.File

namespace Tree

variable {t u : Tree} {p q : Path} {place next : Place} {name : List Char}

/-- A step from a directory to what is there can be taken wherever it can be taken at all. -/
theorem step_back (here : t.node? place = some .directory) (there : (t.node? next).isSome = true)
    (taken : u.step place name = .ok next) : t.step place name = .ok next := by
  obtain ⟨shape, inside⟩ := step_ok taken
  unfold step at taken ⊢
  rw [inside] at taken
  rw [here]
  simp only at taken ⊢
  by_cases stays : name = [] ∨ name = ['.']
  · rw [if_pos stays] at taken ⊢
    exact taken
  · rw [if_neg stays] at taken ⊢
    by_cases up : name = ['.', '.']
    · rw [if_pos up] at taken ⊢
      exact taken
    · rw [if_neg up] at taken ⊢
      by_cases long : (String.ofList name).utf8ByteSize > longestName
      · rw [if_pos long] at taken
        exact absurd taken (by simp)
      · rw [if_neg long]
        unfold Place.onward at shape
        rw [if_neg stays, if_neg up] at shape
        obtain ⟨node, found⟩ := Option.isSome_iff_exists.mp there
        rw [shape] at found ⊢
        rw [found]

/-- The path names something in a directory that is there. -/
def Anchored (t : Tree) (p : Path) : Prop :=
  ∃ above, (Text.splitAt '/' p.text.toList).dropLast.foldlM t.step (t.base p) = .ok above
    ∧ t.node? above = some .directory

/-- One path leads through the directory that another names something in. -/
def Anchors (p q : Path) : Prop :=
  p.isAbsolute = q.isAbsolute ∧ ∃ name more,
    Text.splitAt '/' q.text.toList = (Text.splitAt '/' p.text.toList).dropLast ++ name :: more

/-- Paths below one directory whose ways part behind the directory of the first. -/
theorem anchors_of_join {dir : Path} {before more : List (List Char)} {last : List Char}
    (relativeP : p.isAbsolute = false) (relativeQ : q.isAbsolute = false)
    (first : Text.splitAt '/' p.text.toList = before ++ [last])
    (second : Text.splitAt '/' q.text.toList = before ++ name :: more) : Anchors (dir.join p) (dir.join q) := by
  obtain ⟨front, split⟩ := dir.split_join
  refine ⟨(Path.absolute_join relativeP).trans (Path.absolute_join relativeQ).symm, name, more, ?_⟩
  rw [split relativeP, split relativeQ, first, second, ← List.append_assoc front before [last],
    List.dropLast_concat, List.append_assoc]

theorem anchored_of_file (through : Anchors p q) (there : t.isFile q = true) : t.Anchored p := by
  obtain ⟨same, name, more, shape⟩ := through
  obtain ⟨place, _, located, _⟩ := is_file_iff.mp there
  obtain ⟨_, walked⟩ := locate_iff.mp located
  have base : t.base q = t.base p := by
    unfold base
    rw [same]
  rw [shape, List.foldlM_append, base] at walked
  obtain ⟨above, walk, rest⟩ := Outcome.bind_ok.mp walked
  rw [List.foldlM_cons] at rest
  obtain ⟨middle, taken, _⟩ := Outcome.bind_ok.mp rest
  exact ⟨above, walk, (step_ok taken).2⟩

end Tree

namespace Look

variable {t u : Tree} {output : Path} {look : Look}

def Settled (t : Tree) : Look → Prop
  | read path => ∃ text, t.readText path = .ok text
  | probe path => t.isFile path = true ∨ t.Anchored path

/-- A settled look gives the same answer after an output was put out to another place. -/
theorem same_of_settled (settled : look.Settled t) (written : t.Written u output)
    (apart : t.target look.path ≠ t.target output) : look.SameIn t u := by
  have file_kept : ∀ {content : Content}, t.locate look.path = .ok (t.target look.path) →
      t.node? (t.target look.path) = some (.file content) →
      u.locate look.path = .ok (t.target look.path) ∧ u.node? (t.target look.path) = some (.file content) := by
    intro content located here
    refine ⟨written.keeps.locate located, ?_⟩
    rcases written.elsewhere _ apart with same | ⟨free, _⟩
    · rw [same]
      exact here
    · rw [here] at free
      exact absurd free (by simp)
  cases look with
  | read path =>
      obtain ⟨text, answered⟩ := settled
      obtain ⟨place, located, here⟩ := Tree.read_text_ok.mp answered
      have same : place = t.target path := Tree.locate_ok located
      rw [same] at located here
      obtain ⟨within, there⟩ := file_kept located here
      have again : u.readText path = .ok text := Tree.read_text_ok.mpr ⟨_, within, there⟩
      exact again.trans answered.symm
  | probe path =>
      have onward : t.isFile path = true → u.isFile path = true := by
        intro answered
        obtain ⟨place, content, located, here⟩ := Tree.is_file_iff.mp answered
        have same : place = t.target path := Tree.locate_ok located
        rw [same] at located here
        obtain ⟨within, there⟩ := file_kept located here
        exact Tree.is_file_iff.mpr ⟨_, content, within, there⟩
      have back : u.isFile path = true → t.isFile path = true := by
        intro answered
        rcases settled with answer | ⟨above, walk, directory⟩
        · exact answer
        · obtain ⟨place, content, located, there⟩ := Tree.is_file_iff.mp answered
          have same : place = t.target path :=
            (Tree.locate_ok located).trans (Tree.target_congr written.keeps.cwd path)
          have here : t.node? place = some (.file content) := by
            rcases written.elsewhere place (by rw [same]; exact apart) with kept | ⟨_, made⟩
            · rw [← kept]
              exact there
            · rw [there] at made
              exact absurd made (by simp)
          -- only the last step has to be taken back: the directory before it is there already
          obtain ⟨sound, walked⟩ := Tree.locate_iff.mp located
          obtain ⟨before, name, names⟩ : ∃ before name, Text.splitAt '/' path.text.toList = before ++ [name] :=
            ⟨_, _, (List.dropLast_concat_getLast (Text.splitAt_ne_nil '/' path.text.toList)).symm⟩
          rw [names, List.dropLast_concat] at walk
          rw [names, List.foldlM_append, written.keeps.base path, written.keeps.steps walk] at walked
          obtain ⟨reached, arrived, walked⟩ := Outcome.bind_ok.mp walked
          obtain ⟨final, taken, finish⟩ := Outcome.bind_ok.mp walked
          rw [← Except.ok.inj arrived, Except.ok.inj finish] at taken
          have last := Tree.step_back directory (by rw [here]; rfl) taken
          refine Tree.is_file_iff.mpr ⟨place, content, Tree.locate_iff.mpr ⟨sound, ?_⟩, here⟩
          rw [names, List.foldlM_append, walk]
          exact Outcome.bind_ok.mpr ⟨above, rfl, Outcome.bind_ok.mpr ⟨place, last, rfl⟩⟩
      have answer : u.isFile path = t.isFile path := Bool.eq_iff_iff.mpr ⟨back, onward⟩
      exact answer

end Look

namespace Reading

variable {ε ε' α β : Type}

/-- Once the reading succeeds all its looks are settled. -/
def Settles (x : Reading ε α) : Prop :=
  ∀ t a, x.run t = .ok a → ∀ look ∈ x.looks t, look.Settled t

theorem settles_of_except (x : Except ε α) : (ofExcept x).Settles :=
  fun _ _ _ _ member => absurd member List.not_mem_nil

theorem settles_pure (a : α) : (pure a : Reading ε α).Settles := settles_of_except (.ok a)

theorem settles_text (wrap : Fault → ε) (path : Path) : (text wrap path).Settles := by
  intro t answer answered look member
  rw [List.mem_singleton.mp member]
  exact ⟨answer, Outcome.map_error_ok.mp answered⟩

theorem settles_bind {x : Reading ε α} {next : α → Reading ε β} (first : x.Settles)
    (second : ∀ a, (next a).Settles) : (x >>= next).Settles := by
  intro t b done look member
  obtain ⟨a, found, rest⟩ := Outcome.bind_ok.mp done
  rcases List.mem_append.mp member with early | late
  · exact first t a found look early
  · rw [found] at late
    exact second a t b rest look late

theorem settles_map_error {wrap : ε → ε'} {x : Reading ε α} (settles : x.Settles) :
    (x.mapError wrap).Settles :=
  fun t a done => settles t a (Outcome.map_error_ok.mp done)

/-- The first file among candidates settles them if it leads through the directories of those before it. -/
theorem settles_first_file (fault : ε) {candidates : List Path} (ordered : candidates.Pairwise Tree.Anchors) :
    (firstFile fault candidates).Settles := by
  intro t found done
  have first : candidates.find? t.isFile = some found := by
    rw [run_first_file] at done
    split at done
    · next path there =>
        rw [← Except.ok.inj done]
        exact there
    · exact absurd done (by simp)
  have looks : (firstFile fault candidates).looks t = probes t candidates := rfl
  rw [looks]
  clear looks done
  -- by induction on the candidates: each one in front of the file was missing from a directory that the way of
  -- the file goes through
  induction candidates with
  | nil => exact absurd first (by simp)
  | cons path rest ih =>
      obtain ⟨ahead, others⟩ := List.pairwise_cons.mp ordered
      rw [List.find?_cons] at first
      intro look member
      rw [probes] at member
      cases there : t.isFile path with
      | true =>
          rw [there, if_pos rfl, List.mem_singleton] at member
          rw [member]
          exact Or.inl there
      | false =>
          rw [there] at first member
          rcases List.mem_cons.mp member with here | later
          · rw [here]
            have file : t.isFile found = true := List.find?_some first
            exact Or.inr (Tree.anchored_of_file (ahead found (List.mem_of_find?_eq_some first)) file)
          · exact ih others first look later

end Reading

end Accessors.File
