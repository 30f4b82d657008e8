import Accessors.Proofs.SettledLooks

/-!
Looks that agree. A look agrees in two trees if it finds the same in both, a text or a file, or nothing in either.
Why nothing is found may differ, since the system tells it by what it meets on the way. So where its looks agree a
reading comes to the same but for that reason. Trees with the same directories agree in every look for whose own
place they have the same, whatever other files there are.
-/

namespace Accessors

theorem Outcome.to_option_congr {ε α : Type} {x y : Except ε α} (same : ∀ a, x = .ok a ↔ y = .ok a) :
    x.toOption = y.toOption := by
  refine Option.ext fun a => ?_
  rw [Outcome.to_option_some, Outcome.to_option_some]
  exact same a

namespace File

/-- A look finds the same in two trees, or nothing in either. -/
def Look.Agrees (t u : Tree) : Look → Prop
  | read path => (u.readText path).toOption = (t.readText path).toOption
  | probe path => u.isFile path = t.isFile path

namespace Tree

variable {t u : Tree} {p : Path} {place last : Place} {names : List (List Char)}

/-- Two trees have the same directories, so they differ in files only. -/
structure SameDirectories (t u : Tree) : Prop where
  cwd : u.cwd = t.cwd
  directories : ∀ place, u.node? place = some .directory ↔ t.node? place = some .directory

theorem SameDirectories.symm (same : t.SameDirectories u) : u.SameDirectories t :=
  ⟨same.cwd.symm, fun place => (same.directories place).symm⟩

/-- A file that is put where no directory is leaves the directories as they are. -/
theorem same_directories_put {content : Content} (below : place ≠ []) (free : t.node? place ≠ some .directory) :
    t.SameDirectories (t.put place (.file content)) where
  cwd := rfl
  directories other := by
    rw [node?_put t place other _ below]
    split
    · next here =>
        rw [here]
        exact ⟨fun file => absurd file (by simp), fun directory => absurd directory free⟩
    · exact Iff.rfl

/-- What is found at the end of a way in one tree is found so in the other if it is there. Every step but the last
leads to a directory, and the directories are the same. -/
theorem SameDirectories.steps (same : t.SameDirectories u) (taken : names.foldlM u.step place = .ok last)
    (there : (t.node? last).isSome = true) : names.foldlM t.step place = .ok last := by
  induction names generalizing place with
  | nil => exact taken
  | cons name rest ih =>
      rw [List.foldlM_cons] at taken
      obtain ⟨next, first, later⟩ := Outcome.bind_ok.mp taken
      have inside := (same.directories place).mp (step_ok first).2
      have reached : (t.node? next).isSome = true := by
        cases rest with
        | nil =>
            rw [Except.ok.inj later]
            exact there
        | cons following more =>
            rw [List.foldlM_cons] at later
            obtain ⟨_, second, _⟩ := Outcome.bind_ok.mp later
            rw [(same.directories next).mp (step_ok second).2]
            rfl
      rw [List.foldlM_cons, step_back inside reached first]
      exact ih later

theorem SameDirectories.find {node : Node} (same : t.SameDirectories u)
    (kept : u.node? (t.target p) = t.node? (t.target p)) (found : u.find? p = .ok node) : t.find? p = .ok node := by
  obtain ⟨place, located, here⟩ := find_ok.mp found
  have named : place = t.target p := (locate_ok located).trans (target_congr same.cwd p)
  obtain ⟨sound, taken⟩ := locate_iff.mp located
  have base : u.base p = t.base p := by
    unfold base
    rw [same.cwd]
  rw [named] at here taken
  rw [kept] at here
  rw [base] at taken
  have again := same.steps taken (by rw [here]; rfl)
  exact find_ok.mpr ⟨_, locate_iff.mpr ⟨sound, again⟩, here⟩

theorem SameDirectories.find_iff (same : t.SameDirectories u)
    (kept : u.node? (t.target p) = t.node? (t.target p)) (node : Node) :
    u.find? p = .ok node ↔ t.find? p = .ok node := by
  constructor
  · exact same.find kept
  · have back : t.node? (u.target p) = u.node? (u.target p) := by
      rw [target_congr same.cwd p, kept]
    exact same.symm.find back

end Tree

theorem Look.agrees_of_same_directories {t u : Tree} {look : Look} (same : t.SameDirectories u)
    (kept : u.node? (t.target look.path) = t.node? (t.target look.path)) : look.Agrees t u := by
  have found := same.find_iff kept
  cases look with
  | read path =>
      refine Outcome.to_option_congr fun text => ?_
      rw [Tree.read_text_ok, Tree.read_text_ok, ← Tree.find_ok, ← Tree.find_ok]
      exact found _
  | probe path =>
      have file (w : Tree) : w.isFile path = true ↔ ∃ content, w.find? path = .ok (.file content) := by
        rw [Tree.is_file_iff, exists_comm]
        exact exists_congr fun content => Tree.find_ok.symm
      refine Bool.eq_iff_iff.mpr ?_
      rw [file u, file t]
      exact exists_congr fun content => found _

namespace Reading

variable {ε ε' α β : Type} {t : Tree} {look : Look}

/-! The looks of a reading that is put together. -/

theorem mem_probes {candidates : List Path} (member : look ∈ probes t candidates) :
    ∃ path ∈ candidates, look = .probe path := by
  induction candidates with
  | nil => exact absurd member List.not_mem_nil
  | cons path rest ih =>
      rw [probes] at member
      rcases List.mem_cons.mp member with same | later
      · exact ⟨path, List.mem_cons_self, same⟩
      · split at later
        · exact absurd later List.not_mem_nil
        · obtain ⟨other, listed, shape⟩ := ih later
          exact ⟨other, List.mem_cons_of_mem path listed, shape⟩

@[simp] theorem mem_looks_bind {x : Reading ε α} {next : α → Reading ε β} :
    look ∈ (x >>= next).looks t ↔ look ∈ x.looks t ∨ ∃ a, x.run t = .ok a ∧ look ∈ (next a).looks t := by
  change look ∈ x.looks t ++ _ ↔ _
  rw [List.mem_append]
  cases x.run t <;> simp

@[simp] theorem looks_pure (a : α) : (pure a : Reading ε α).looks t = [] := rfl

@[simp] theorem looks_of_except (x : Except ε α) : (ofExcept x).looks t = [] := rfl

@[simp] theorem looks_map_error (wrap : ε → ε') (x : Reading ε α) : (x.mapError wrap).looks t = x.looks t := rfl

@[simp] theorem looks_text (wrap : Fault → ε) (path : Path) : (text wrap path).looks t = [.read path] := rfl

@[simp] theorem looks_first_file (fault : ε) (candidates : List Path) :
    (firstFile fault candidates).looks t = probes t candidates := rfl

/-! What a reading comes to where its looks agree. -/

/-- Where its looks agree the reading comes to the same, but for what `blur` takes away from a fault. -/
def AgreesUpTo (blur : ε → ε) (x : Reading ε α) : Prop :=
  ∀ t u, (∀ look ∈ x.looks t, look.Agrees t u) → (x.run u).mapError blur = (x.run t).mapError blur

variable {blur : ε → ε}

theorem agrees_of_except (x : Except ε α) : (ofExcept x).AgreesUpTo blur :=
  fun _ _ _ => rfl

theorem agrees_pure (a : α) : (pure a : Reading ε α).AgreesUpTo blur := agrees_of_except (.ok a)

theorem agrees_text {wrap : Fault → ε} (path : Path) (blurred : ∀ a b, blur (wrap a) = blur (wrap b)) :
    (text wrap path).AgreesUpTo blur := by
  intro t u agree
  have found : (u.readText path).toOption = (t.readText path).toOption := agree (.read path) List.mem_cons_self
  rw [run_text, run_text]
  cases before : t.readText path with
  | ok answer =>
      rw [before] at found
      rw [Outcome.to_option_some.mp found]
  | error reason =>
      cases after : u.readText path with
      | ok answer =>
          rw [before, after] at found
          exact absurd found (by simp [Except.toOption])
      | error other => exact congrArg Except.error (blurred other reason)

theorem agrees_first_file (fault : ε) (candidates : List Path) : (firstFile fault candidates).AgreesUpTo blur := by
  intro t u agree
  have same : ∀ look ∈ probes t candidates, look.SameIn t u := by
    intro look member
    obtain ⟨path, _, rfl⟩ := mem_probes member
    exact agree _ member
  rw [(firstFile fault candidates).depends t u same]

theorem agrees_bind {x : Reading ε α} {next : α → Reading ε β} (first : x.AgreesUpTo blur)
    (second : ∀ a, (next a).AgreesUpTo blur) : (x >>= next).AgreesUpTo blur := by
  intro t u agree
  have early := first t u fun look member => agree look (mem_looks_bind.mpr (Or.inl member))
  rw [run_bind, run_bind]
  cases before : x.run t with
  | ok a =>
      rw [before] at early
      rw [Outcome.map_error_ok.mp early]
      exact second a t u fun look member => agree look (mem_looks_bind.mpr (Or.inr ⟨a, before, member⟩))
  | error e =>
      cases after : x.run u with
      | ok a =>
          rw [before, after] at early
          cases early
      | error e' =>
          rw [before, after] at early
          exact congrArg Except.error (Except.error.inj early)

theorem agrees_map_error {wrap : ε → ε'} {blur' : ε' → ε'} {x : Reading ε α} (first : x.AgreesUpTo blur)
    (kept : ∀ e, blur' (wrap e) = wrap (blur e)) : (x.mapError wrap).AgreesUpTo blur' := by
  intro t u agree
  have through (y : Except ε α) : (y.mapError wrap).mapError blur' = (y.mapError blur).mapError wrap := by
    cases y with
    | ok a => rfl
    | error e => exact congrArg Except.error (kept e)
  rw [run_map_error, run_map_error, through, through, first t u agree]

end Reading

end File

end Accessors
