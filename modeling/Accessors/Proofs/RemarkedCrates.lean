import Accessors.Proofs.Outlines
import Mathlib.Logic.Relation

/-!
Crates that differ in the marks of raw identifiers only. Their modules load alike, and aliases are followed through
them side by side, each walk with its own spelling of the names that imports gave it. The walks part in two ways. A
module that an import names with a mark is not found, since declarations are known without. And an alias that is come
back to under another spelling is not known again: if the target that leads back has arguments, it is refused for
them before the circle is noticed.
-/

namespace Accessors

open File (Tree Path)

/-! Answers that are alike. -/

namespace Outcome

variable {ε ε' α β γ δ : Type} {f : α → γ} {g : β → δ} {x : Except ε α} {x' : Except ε' α}

/-- Two outcomes show the same, or both fail. -/
def ShowAlike (f : α → γ) (x : Except ε α) (x' : Except ε' α) : Prop := x.toOption.map f = x'.toOption.map f

theorem ShowAlike.bind {next : α → Except ε β} {next' : α → Except ε' β} (first : ShowAlike f x x')
    (second : ∀ a a', f a = f a' → ShowAlike g (next a) (next' a')) : ShowAlike g (x >>= next) (x' >>= next') := by
  cases x with
  | error e =>
      cases x' with
      | error e' => rfl
      | ok a' => exact absurd first (by simp [ShowAlike, Except.toOption])
  | ok a =>
      cases x' with
      | error e' => exact absurd first (by simp [ShowAlike, Except.toOption])
      | ok a' => exact second a a' (Option.some.inj first)

theorem ShowAlike.mapError {δ' : Type} {wrap : ε → δ} {wrap' : ε' → δ'} (alike : ShowAlike f x x') :
    ShowAlike f (x.mapError wrap) (x'.mapError wrap') := by
  cases x <;> cases x' <;> exact alike

theorem ShowAlike.cases (alike : ShowAlike f x x') :
    (∃ a a', x = .ok a ∧ x' = .ok a' ∧ f a = f a') ∨ ∃ e e', x = .error e ∧ x' = .error e' := by
  cases x with
  | error e =>
      cases x' with
      | error e' => exact Or.inr ⟨e, e', rfl, rfl⟩
      | ok a' => exact absurd alike (by simp [ShowAlike, Except.toOption])
  | ok a =>
      cases x' with
      | error e' => exact absurd alike (by simp [ShowAlike, Except.toOption])
      | ok a' => exact Or.inl ⟨a, a', rfl, rfl, Option.some.inj alike⟩

end Outcome

open Outcome (ShowAlike)

/-! Kinds of errors. -/

inductive ResolutionKind where
  | moduleLoad
  | typeNotFound
  | notATypeDeclaration
  | notAStruct
  | aliasCycle
  | unsupportedAlias
  deriving DecidableEq, Repr

def ResolutionError.kind : ResolutionError → ResolutionKind
  | .moduleLoad _ _ => .moduleLoad
  | .typeNotFound _ _ => .typeNotFound
  | .notATypeDeclaration _ _ => .notATypeDeclaration
  | .notAStruct _ _ => .notAStruct
  | .aliasCycle _ => .aliasCycle
  | .unsupportedAlias _ _ => .unsupportedAlias

/-! Modules that load alike. -/

/-- Two trees hold the same files, and files of the same outlines. -/
structure Remarked (t t' : Tree) : Prop where
  files : ∀ path, t'.isFile path = t.isFile path
  outlines : ∀ path, ShowAlike (List.map Item.outline) (itemsOf t path) (itemsOf t' path)

theorem Remarked.symm {t t' : Tree} (remarked : Remarked t t') : Remarked t' t where
  files path := (remarked.files path).symm
  outlines path := (remarked.outlines path).symm

theorem File.Tree.locate_put_file {t : Tree} {place : File.Place} {content content' : File.Content}
    (there : t.node? place = some (.file content)) (below : place ≠ []) (p : Path) :
    (t.put place (.file content')).locate p = t.locate p := by
  have step (dir : File.Place) (name : List Char) : (t.put place (.file content')).step dir name = t.step dir name := by
    unfold step
    rw [node?_put t place dir _ below, node?_put t place (dir ++ [name]) _ below]
    by_cases here : dir = place
    · rw [if_pos here, here, there]
    · rw [if_neg here]
      by_cases onward : dir ++ [name] = place
      · rw [if_pos onward, onward, there]
      · rw [if_neg onward]
  have steps : (t.put place (.file content')).step = t.step := funext fun dir => funext fun name => step dir name
  unfold locate
  rw [steps]
  rfl

/-- Where a file is written anew, a path leads to the file, or to what it led to before. -/
theorem File.Tree.find_put_file {t : Tree} {place : File.Place} {content content' : File.Content}
    (there : t.node? place = some (.file content)) (p : Path) :
    (t.find? p = .ok (.file content) ∧ (t.put place (.file content')).find? p = .ok (.file content'))
      ∨ (t.put place (.file content')).find? p = t.find? p := by
  have below : place ≠ [] := by
    rintro rfl
    cases there
  unfold find?
  rw [locate_put_file there below]
  cases t.locate p with
  | error fault => exact Or.inr rfl
  | ok last =>
      by_cases here : last = place
      · apply Or.inl
        simp [here, there, node?_put t place _ _ below, bind, Except.bind]
      · apply Or.inr
        simp [here, node?_put t place _ _ below, bind, Except.bind]

/-- A file that is written anew with marks added or left out. -/
theorem Remarked.put {t : Tree} {place : File.Place} {text text' : String}
    (there : t.node? place = some (.file (.text text)))
    (alike : ShowAlike (List.map Item.outline) (Parsing.fileItems text) (Parsing.fileItems text')) :
    Remarked t (t.put place (.file (.text text'))) := by
  constructor
  · intro path
    unfold Tree.isFile
    rcases Tree.find_put_file there path with ⟨old, new⟩ | same
    · rw [old, new]
    · rw [same]
  · intro path
    unfold itemsOf Tree.readText
    rcases Tree.find_put_file there path with ⟨old, new⟩ | same
    · rw [old, new]
      exact alike.mapError
    · rw [same]
      rfl

theorem module_declared_of_outline (segment : String) (item : Item) :
    moduleDeclared segment item.outline
      = (moduleDeclared segment item).map fun (file, body) => (file, body.map (List.map Item.outline)) := by
  cases item with
  | module name file body =>
      have inside : Item.outlineBody body = body.map (List.map Item.outline) := by
        cases body with
        | none => rfl
        | some items => simp [Item.outlineBody, Item.outline_all_eq]
      have same : unraw name.bare.text = unraw name.text := name.unraw_bare
      rw [Item.outline, inside]
      simp only [moduleDeclared, same]
      split <;> rfl
  | _ => simp [Item.outline, moduleDeclared]

namespace Walk

def outline (w : Walk) : Walk := { w with items := w.items.map Item.outline }

variable {t t' : Tree} {w w' : Walk}

theorem find_module_of_outline (segment : String) :
    w.outline.items.findSome? (moduleDeclared segment)
      = (w.items.findSome? (moduleDeclared segment)).map fun (file, body) =>
          (file, body.map (List.map Item.outline)) := by
  simp only [outline]
  rw [List.findSome?_map, List.map_findSome?]
  congr 1
  funext item
  exact module_declared_of_outline segment item

/-- Walks of one outline come to declarations that name one file and whose bodies are of one outline, or both to
none. -/
theorem declared_alike (same : w.outline = w'.outline) (segment : String) :
    (w.items.findSome? (moduleDeclared segment) = none ∧ w'.items.findSome? (moduleDeclared segment) = none)
      ∨ ∃ named body body', w.items.findSome? (moduleDeclared segment) = some (named, body)
        ∧ w'.items.findSome? (moduleDeclared segment) = some (named, body')
        ∧ body.map (List.map Item.outline) = body'.map (List.map Item.outline) := by
  have declared := find_module_of_outline (w := w) segment
  rw [same, find_module_of_outline] at declared
  cases here : w.items.findSome? (moduleDeclared segment) with
  | none =>
      cases there : w'.items.findSome? (moduleDeclared segment) with
      | none => exact Or.inl ⟨rfl, rfl⟩
      | some found => simp [here, there] at declared
  | some found =>
      cases there : w'.items.findSome? (moduleDeclared segment) with
      | none => simp [here, there] at declared
      | some found' =>
          simp only [here, there, Option.map_some, Option.some.injEq, Prod.mk.injEq] at declared
          obtain ⟨files, bodies⟩ := declared
          refine Or.inr ⟨found.1, found.2, found'.2, rfl, ?_, bodies.symm⟩
          rw [← files]

theorem descend_alike (remarked : Remarked t t') (same : w.outline = w'.outline) (segment : String) :
    ShowAlike outline (w.descend t segment) (w'.descend t' segment) := by
  have file : w.outline.file = w'.outline.file := congrArg Walk.file same
  have childDir : w.outline.childDir = w'.outline.childDir := congrArg Walk.childDir same
  have attributeDir : w.outline.attributeDir = w'.outline.attributeDir := congrArg Walk.attributeDir same
  simp only [outline] at file childDir attributeDir
  have located (named : Option String) : w'.locate t' segment named = w.locate t segment named := by
    unfold locate
    simp only [remarked.files, childDir, attributeDir]
  unfold descend
  rcases declared_alike same segment with ⟨here, there⟩ | ⟨named, body, body', here, there, bodies⟩
  · rw [here, there]
    rfl
  rw [here, there]
  cases body with
  | some items =>
      -- The module stands in braces, in both files.
      obtain ⟨items', shape, inside⟩ := Option.map_eq_some_iff.mp bodies.symm
      rw [shape]
      simp [ShowAlike, Except.toOption, outline, file, childDir, inside]
  | none =>
      rw [Option.map_eq_none_iff.mp bodies.symm]
      simp only [located]
      cases w.locate t segment named with
      | error fault => rfl
      | ok place =>
          obtain ⟨path, dir⟩ := place
          refine (remarked.outlines path).bind fun items items' inside => ?_
          simp [ShowAlike, Except.toOption, outline, inside, pure, Except.pure]

theorem fold_alike (remarked : Remarked t t') (same : w.outline = w'.outline) (segments : List String) :
    ShowAlike outline (segments.foldlM (descend t) w) (segments.foldlM (descend t') w') := by
  induction segments generalizing w w' with
  | nil => simpa [ShowAlike, Except.toOption, pure, Except.pure] using same
  | cons segment rest ih =>
      rw [List.foldlM_cons, List.foldlM_cons]
      exact (descend_alike remarked same segment).bind fun next next' alike => ih alike

end Walk

namespace Module

variable {t t' : Tree} {layout : CrateLayout}

theorem load_alike (layout : CrateLayout) (remarked : Remarked t t') (segments : List String) :
    ShowAlike outline (loadSegments t layout segments) (loadSegments t' layout segments) := by
  have start : ShowAlike Walk.outline (Walk.start t layout.entry) (Walk.start t' layout.entry) := by
    refine ShowAlike.bind (remarked.outlines layout.entry) fun items items' inside => ?_
    simp [ShowAlike, Except.toOption, Walk.outline, inside, pure, Except.pure]
  unfold loadSegments
  refine (start.bind fun entry entry' same => ?_).mapError
  refine (Walk.fold_alike remarked same _).bind fun walk walk' alike => ?_
  have file : walk.outline.file = walk'.outline.file := congrArg Walk.file alike
  have items : walk.outline.items = walk'.outline.items := congrArg Walk.items alike
  simp only [Walk.outline] at file items
  simp [ShowAlike, Except.toOption, outline, file, items, pure, Except.pure]

/-- A module that does not load is told as such. -/
theorem load_error {segments : List String} {e : ResolutionError} (failed : loadSegments t layout segments = .error e) :
    e.kind = .moduleLoad := by
  unfold loadSegments at failed
  obtain ⟨fault, _, rfl⟩ := Outcome.map_error_error.mp failed
  rfl

/-- No module is found by a name with a mark. -/
theorem load_marked (t : Tree) (layout : CrateLayout) {segments : List String} (first : segments.head? = some "crate")
    (marked : segments.map unraw ≠ segments) : ∃ e, loadSegments t layout segments = .error e := by
  cases loaded : loadSegments t layout segments with
  | error e => exact ⟨e, rfl⟩
  | ok m =>
      have below : m.Loaded t layout := by
        obtain ⟨rest, rfl⟩ := List.head?_eq_some_iff.mp first
        exact ⟨rest, loaded⟩
      have unmarked := below.unmarked
      rw [Unmarked, segments_of_load_segments loaded] at unmarked
      exact absurd unmarked marked

/-- Modules of one outline have the same segments, so one tree has at most one of them. -/
theorem unique_of_outline {m m' : Module} (loaded : m.Loaded t layout) (loaded' : m'.Loaded t layout)
    (same : m.outline = m'.outline) : m = m' := by
  have segments : m.outline.segments = m'.outline.segments := congrArg Module.segments same
  apply loaded.unique_of_path loaded'
  exact congrArg (Text.join "::") segments

section

variable {m m' : Module} {name name' : String}

/-- What lookup finds in modules of one outline are items of one outline. -/
theorem item_alike (same : m.outline = m'.outline) (names : unraw name = unraw name') {item : Item}
    (finds : m.Finds name item) : ∃ there, m'.Finds name' there ∧ there.outline = item.outline := by
  obtain ⟨symbol, lookup, rfl⟩ := finds
  have found : (Symbol.find? m'.symbols name').map Symbol.outline
      = (Symbol.find? m.symbols name).map Symbol.outline := by
    rw [← Symbol.find_outline, ← Symbol.find_outline, ← m.symbols_of_outline, ← m'.symbols_of_outline, same]
    exact Symbol.find_congr names.symm
  rw [lookup, Option.map_some] at found
  obtain ⟨symbol', lookup', outlines⟩ := Option.map_eq_some_iff.mp found
  exact ⟨symbol'.item, ⟨symbol', lookup', rfl⟩, congrArg Symbol.item outlines⟩

theorem struct_alike (same : m.outline = m'.outline) (names : unraw name = unraw name') {decl : StructDecl}
    (finds : m.Finds name (.struct decl)) :
    ∃ other, m'.Finds name' (.struct other) ∧ other.fields = decl.fields := by
  obtain ⟨item, found, outlines⟩ := item_alike same names finds
  obtain ⟨other, rfl, fields⟩ := Item.struct_of_outline outlines
  exact ⟨other, found, fields⟩

theorem alias_alike (same : m.outline = m'.outline) (names : unraw name = unraw name') {decl : AliasDecl}
    (finds : m.Finds name (.typeAlias decl)) :
    ∃ other, m'.Finds name' (.typeAlias other) ∧ other.target.outline = decl.target.outline := by
  obtain ⟨item, found, outlines⟩ := item_alike same names finds
  obtain ⟨other, rfl, targets⟩ := Item.alias_of_outline outlines
  exact ⟨other, found, targets⟩

end

end Module

/-! Targets that lead alike. -/

namespace AliasTarget

/-- The target leads to a module that is named with a mark. -/
def Marked : AliasTarget → Prop
  | .inModule segments _ => segments.map unraw ≠ segments
  | _ => False

variable {t t' : Tree} {layout : CrateLayout} {m m' : Module} {target target' : Ty}

theorem classify_alike (unmarked : m.Unmarked) (unmarked' : m'.Unmarked) (modules : m.outline = m'.outline)
    (targets : target.outline = target'.outline) :
    (classify m target).bare.unwritten = (classify m' target').bare.unwritten := by
  rw [classify_outline unmarked, classify_outline unmarked', modules, targets]

end AliasTarget

section

variable {t t' : Tree} {layout : CrateLayout} {m m' : Module} {target target' : Ty} {requested : String}

/-- A target that leads to a module named with a mark leads nowhere. -/
theorem follow_target_marked (t : Tree) (layout : CrateLayout) (requested : String)
    (marked : (AliasTarget.classify m target).Marked) :
    ∃ e, followTarget t layout requested m target = .error e ∧ e.kind = .moduleLoad := by
  unfold followTarget
  cases leads : AliasTarget.classify m target with
  | here name => rw [leads] at marked; exact absurd marked id
  | foreign signature => rw [leads] at marked; exact absurd marked id
  | inModule segments name =>
      rw [leads] at marked
      obtain ⟨rest, rfl⟩ := AliasTarget.classify_in_module leads
      obtain ⟨e, failed⟩ := Module.load_marked t layout rfl marked
      refine ⟨e, ?_, Module.load_error failed⟩
      simp only [failed]
      rfl

/-- A target that leads nowhere is not refused for its arguments. -/
theorem follow_target_error {e : ResolutionError} (failed : followTarget t layout requested m target = .error e) :
    e.kind ≠ .unsupportedAlias := by
  unfold followTarget at failed
  cases leads : AliasTarget.classify m target with
  | here name => rw [leads] at failed; cases failed
  | foreign signature =>
      rw [leads] at failed
      obtain rfl := Except.error.inj failed
      simp [ResolutionError.kind]
  | inModule segments name =>
      rw [leads] at failed
      cases loaded : Module.loadSegments t layout segments with
      | ok reached =>
          simp only [loaded] at failed
          cases failed
      | error cause =>
          simp only [loaded] at failed
          obtain rfl := Except.error.inj failed
          rw [Module.load_error loaded]
          decide

/-- Targets of one outline in modules of one outline lead to such modules again and to one name, or nowhere for the
same reason, if no module on the way is named with a mark. -/
theorem follow_target_alike (requested : String) (remarked : Remarked t t') (loaded : m.Loaded t layout)
    (loaded' : m'.Loaded t' layout) (modules : m.outline = m'.outline) (targets : target.outline = target'.outline)
    (plain : ¬ (AliasTarget.classify m target).Marked) (plain' : ¬ (AliasTarget.classify m' target').Marked) :
    (∃ e e', followTarget t layout requested m target = .error e
        ∧ followTarget t' layout requested m' target' = .error e' ∧ e.kind = e'.kind)
      ∨ ∃ reached reached' name name', followTarget t layout requested m target = .ok (reached, name)
        ∧ followTarget t' layout requested m' target' = .ok (reached', name')
        ∧ reached.outline = reached'.outline ∧ unraw name = unraw name' := by
  have alike := AliasTarget.classify_alike loaded.unmarked loaded'.unmarked modules targets
  unfold followTarget
  cases leads : AliasTarget.classify m target with
  | here name =>
      rw [leads] at alike
      cases leads' : AliasTarget.classify m' target' with
      | here name' =>
          rw [leads'] at alike
          obtain rfl := AliasTarget.here.inj alike
          exact Or.inr ⟨m, m', name, name, rfl, rfl, modules, rfl⟩
      | inModule segments' name' => rw [leads'] at alike; cases alike
      | foreign signature' => rw [leads'] at alike; cases alike
  | foreign signature =>
      rw [leads] at alike
      cases leads' : AliasTarget.classify m' target' with
      | here name' => rw [leads'] at alike; cases alike
      | inModule segments' name' => rw [leads'] at alike; cases alike
      | foreign signature' => exact Or.inl ⟨_, _, rfl, rfl, rfl⟩
  | inModule segments name =>
      rw [leads] at alike plain
      cases leads' : AliasTarget.classify m' target' with
      | here name' => rw [leads'] at alike; cases alike
      | foreign signature' => rw [leads'] at alike; cases alike
      | inModule segments' name' =>
          rw [leads'] at alike plain'
          obtain ⟨bare, names⟩ := AliasTarget.inModule.inj alike
          have same : segments' = segments := by
            rw [← Decidable.not_not.mp plain, ← Decidable.not_not.mp plain', bare]
          rw [same]
          rcases (Module.load_alike layout remarked segments).cases with
            ⟨reached, reached', found, found', outlines⟩ | ⟨e, e', failed, failed'⟩
          · refine Or.inr ⟨reached, reached', name, name', ?_, ?_, outlines, names⟩
            · simp only [found]; rfl
            · simp only [found']; rfl
          · refine Or.inl ⟨e, e', ?_, ?_, ?_⟩
            · simp only [failed]; rfl
            · simp only [failed']; rfl
            · rw [Module.load_error failed, Module.load_error failed']

/-- A name that a target leads to holds no colon. -/
theorem Module.Leads.colonless {reached : Module} {name : String} (leads : m.Leads t layout target reached name)
    (loaded : m.Loaded t layout) : Text.Colonless name := by
  have named : (AliasTarget.classify m target).named? = some name := by
    unfold Module.Leads at leads
    split at leads
    · next own points => rw [points, leads.2]; rfl
    · next segments own points => rw [points, leads.2]; rfl
    · exact absurd leads id
  rcases AliasTarget.piece_of_classify named with ⟨own, rfl⟩ | listed
  · exact own.colonless
  · exact loaded.again.1 name listed

end

end Accessors
