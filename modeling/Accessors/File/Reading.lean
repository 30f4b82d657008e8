import Accessors.File.Trail

/-!
Reading, with a record of it. What is found out about a tree is found out by looks at files: the text of a file
is read, or it is probed whether a file is there. A reading keeps the looks that it takes, and its answer depends
on nothing else. Readings are put together like other computations, and what they put together is again one.
-/

namespace Accessors.File

inductive Look where
  | read (path : Path)
  | probe (path : Path)
  deriving DecidableEq, Repr

namespace Look

def path : Look → Path
  | read path | probe path => path

/-- Two trees give the same answer to a look. -/
def SameIn (t u : Tree) : Look → Prop
  | read path => u.readText path = t.readText path
  | probe path => u.isFile path = t.isFile path

theorem same_of_trail {t u : Tree} {look : Look} (cwd : u.cwd = t.cwd)
    (same : ∀ place ∈ t.trail look.path, u.node? place = t.node? place) : look.SameIn t u := by
  cases look with
  | read path =>
      have found : u.find? path = t.find? path := Tree.find_congr cwd same
      have answer : u.readText path = t.readText path := by rw [Tree.readText, found, Tree.readText]
      exact answer
  | probe path =>
      have found : u.find? path = t.find? path := Tree.find_congr cwd same
      have answer : u.isFile path = t.isFile path := by rw [Tree.isFile, found, Tree.isFile]
      exact answer

end Look

/-- The looks for the first of some paths that leads to a file. -/
def probes (t : Tree) : List Path → List Look
  | [] => []
  | path :: rest => .probe path :: if t.isFile path then [] else probes t rest

/-- Something that is found out about a tree, with the looks that it takes. -/
structure Reading (ε α : Type) where
  run : Tree → Except ε α
  looks : Tree → List Look
  depends : ∀ t u, (∀ look ∈ looks t, look.SameIn t u) → run u = run t

namespace Reading

variable {ε ε' α β : Type}

def ofExcept (x : Except ε α) : Reading ε α where
  run _ := x
  looks _ := []
  depends _ _ _ := rfl

def text (wrap : Fault → ε) (path : Path) : Reading ε String where
  run t := (t.readText path).mapError wrap
  looks _ := [.read path]
  depends t u same := by
    have answer : u.readText path = t.readText path := same (.read path) List.mem_cons_self
    rw [answer]

theorem find_file_congr {t u : Tree} {candidates : List Path}
    (same : ∀ look ∈ probes t candidates, look.SameIn t u) :
    candidates.find? u.isFile = candidates.find? t.isFile := by
  induction candidates with
  | nil => rfl
  | cons path rest ih =>
      have here : u.isFile path = t.isFile path := same (.probe path) List.mem_cons_self
      rw [List.find?_cons, List.find?_cons, here]
      cases found : t.isFile path with
      | true => rfl
      | false =>
          apply ih
          intro look member
          apply same look
          rw [probes, found]
          exact List.mem_cons_of_mem _ member

def firstFile (fault : ε) (candidates : List Path) : Reading ε Path where
  run t :=
    match candidates.find? t.isFile with
    | some path => .ok path
    | none => .error fault
  looks t := probes t candidates
  depends t u same := by rw [find_file_congr same]

def bind (x : Reading ε α) (next : α → Reading ε β) : Reading ε β where
  run t := x.run t >>= fun a => (next a).run t
  looks t :=
    x.looks t ++
      match x.run t with
      | .ok a => (next a).looks t
      | .error _ => []
  depends t u same := by
    have first := x.depends t u fun look member => same look (List.mem_append_left _ member)
    rw [first]
    -- the second part is led to by the answer of the first, which is the same in both trees
    cases found : x.run t with
    | error e => rfl
    | ok a =>
        apply (next a).depends t u
        intro look member
        apply same look
        rw [found]
        exact List.mem_append_right _ member

def mapError (wrap : ε → ε') (x : Reading ε α) : Reading ε' α where
  run t := (x.run t).mapError wrap
  looks := x.looks
  depends t u same := by rw [x.depends t u same]

instance : Monad (Reading ε) where
  pure a := ofExcept (.ok a)
  bind := bind

@[simp] theorem run_bind (x : Reading ε α) (next : α → Reading ε β) (t : Tree) :
    (x >>= next).run t = x.run t >>= fun a => (next a).run t := rfl

@[simp] theorem run_pure (a : α) (t : Tree) : (pure a : Reading ε α).run t = .ok a := rfl

@[simp] theorem run_of_except (x : Except ε α) (t : Tree) : (ofExcept x).run t = x := rfl

@[simp] theorem run_map_error (wrap : ε → ε') (x : Reading ε α) (t : Tree) :
    (x.mapError wrap).run t = (x.run t).mapError wrap := rfl

@[simp] theorem run_text (wrap : Fault → ε) (path : Path) (t : Tree) :
    (text wrap path).run t = (t.readText path).mapError wrap := rfl

@[simp] theorem run_first_file (fault : ε) (candidates : List Path) (t : Tree) :
    (firstFile fault candidates).run t
      = match candidates.find? t.isFile with
        | some path => .ok path
        | none => .error fault := rfl

end Reading

end Accessors.File
