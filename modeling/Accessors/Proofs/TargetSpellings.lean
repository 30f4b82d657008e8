import Accessors.Proofs.ImportMeaning
import Accessors.Proofs.RemarkedAnswers
import Accessors.Proofs.TypeNamespace

/-!
The ways to write a type of a module as the target of an alias that stands in the module: its name, also in parentheses,
or a path to it from `self`, `super` or `crate`, or by a name under which the module is imported into itself. All of
them lead there, save for two kinds of imports. The path of one that climbs from `self`, or has a name with the mark of a
raw identifier, is kept as the path of no module; and the path of one that goes through another import is taken for
that of another crate.
-/

namespace Accessors

open File (Tree)

/-! Modules have no words for names that begin a path in the crate. -/

section

variable {t : Tree} {layout : CrateLayout}

theorem Walk.plain_of_descend {w next : Walk} {segment : String} (named : ∀ item ∈ w.items, item.Named)
    (step : w.descend t segment = .ok next) : segment ∉ pathWords := by
  unfold descend at step
  cases declared : w.items.findSome? (moduleDeclared segment) with
  | none =>
      rw [declared] at step
      cases step
  | some written =>
      obtain ⟨item, member, tells⟩ := List.exists_of_findSome?_eq_some declared
      unfold moduleDeclared at tells
      split at tells
      · next name file body =>
          split at tells
          · next same =>
              have free : name.NamesModule := by
                cases named _ member with
                | module free _ => exact free
                | plain plain => cases plain
              intro listed
              have never : segment ∈ Lexer.neverRaw ∧ segment ∈ Parsing.reserved ∧ segment ≠ "try" := by
                clear same tells declared step
                revert segment
                decide
              rw [Ident.unraw_eq_iff never.1] at same
              rw [Ident.NamesModule, Ident.Free, same] at free
              exact free.elim (fun free => free never.2.1) never.2.2
          · cases tells
      · cases tells

theorem Walk.plain_of_fold {w last : Walk} {segments : List String} (named : ∀ item ∈ w.items, item.Named)
    (walked : segments.foldlM (Walk.descend t) w = .ok last) : ∀ segment ∈ segments, segment ∉ pathWords := by
  induction segments generalizing w with
  | nil => simp
  | cons segment more ih =>
      rw [List.foldlM_cons] at walked
      obtain ⟨next, step, rest⟩ := Outcome.bind_ok.mp walked
      exact List.forall_mem_cons.mpr ⟨plain_of_descend named step, ih (named_of_descend named step) rest⟩

theorem Module.plain_of_load {rest : List String} {m : Module}
    (found : loadSegments t layout ("crate" :: rest) = .ok m) : ∀ segment ∈ rest, segment ∉ pathWords := by
  obtain ⟨entry, walk, opened, walked, rfl⟩ := load_segments_ok.mp found
  obtain ⟨items, read, shape⟩ := Outcome.bind_ok.mp opened
  obtain rfl := Outcome.pure_ok.mp shape
  exact Walk.plain_of_fold (named_of_items read) walked

theorem Module.Loaded.plain_around {m : Module} (loaded : m.Loaded t layout) :
    ∀ segment ∈ m.around, segment ∉ pathWords := by
  obtain ⟨rest, found⟩ := loaded
  have around : m.around = rest := by
    rw [Module.around, segments_of_load_segments found, List.drop_one, List.tail_cons]
  rw [around]
  exact plain_of_load found

end

/-! The path that is kept for an import of the module itself. -/

/-- The path climbs from `self`, or has a name with the mark of a raw identifier. -/
def Crooked (path : List String) : Prop := (∃ rest, path = "self" :: "super" :: rest) ∨ path.map unraw ≠ path

section

variable {m : Module} {modules : ModuleImports m} {unseen : Option Import} {rooted : Bool} {path : List String}

/-- A run of `super` has no marks. -/
theorem unraw_supers (path : List String) : (path.take (Module.ups path)).map unraw = path.take (Module.ups path) := by
  have run : path.take (Module.ups path) = path.takeWhile (· == "super") :=
    (List.prefix_iff_eq_take.mp (List.takeWhile_prefix _)).symm
  rw [run]
  refine (List.map_congr_left fun piece member => ?_).trans (List.map_id _)
  have word : piece = "super" := by
    have all := List.all_eq_true.mp (List.all_takeWhile (p := (· == "super")) (l := path)) piece member
    simpa using all
  rw [word]
  decide

theorem unraw_eq_iff_below_supers (path : List String) :
    path.map unraw = path ↔ (path.drop (Module.ups path)).map unraw = path.drop (Module.ups path) := by
  conv_lhs => rw [← List.take_append_drop (Module.ups path) path, List.map_append, unraw_supers]
  exact List.append_right_inj _

theorem Module.Unmarked.around (unmarked : m.Unmarked) (located : m.segments = "crate" :: m.around) :
    m.around.map unraw = m.around := by
  rw [Unmarked, located, List.map_cons] at unmarked
  exact (List.cons.inj unmarked).2

/-- Without a climb from `self` and without marks, a path of the crate that denotes the module it is read in is kept as
the path of the module. -/
theorem kept_of_straight (located : m.segments = "crate" :: m.around) (unmarked : m.Unmarked) {first : String}
    {rest : List String} (within : first ∈ pathWords) (straight : ¬ Crooked (first :: rest))
    (denotes : Denotes m modules unseen rooted (first :: rest) ⟨none, m.around⟩) :
    absolutize (first :: rest) m.segments = m.segments := by
  obtain ⟨direct, plain⟩ := not_or.mp straight
  rw [not_not] at plain
  generalize itself : (⟨none, m.around⟩ : ItemPath) = p at denotes
  cases denotes with
  | rooted | external => cases itself
  | declared other | imported other => exact absurd within other
  | crate word =>
      have names : m.around = rest.map unraw := by simpa [ItemPath.below] using itself
      subst word
      rw [absolutize_crate, located, names, (List.cons.inj plain).2]
  | self word room =>
      subst word
      rcases rest with _ | ⟨next, more⟩
      · simp [absolutize_self]
      · -- Names below the module denote something in it, and `super` would climb from `self`.
        have same := itself.trans ((upward_of_self room).mpr fun more same => direct ⟨more, by rw [same]⟩)
        have lengths := congrArg (fun p => p.names.length) same
        simp [ItemPath.below] at lengths
  | super word room =>
      subst word
      have names := congrArg ItemPath.names itself
      simp only [Module.upward, ItemPath.below, List.nil_append] at names
      rw [List.map_append, List.map_take, unmarked.around located, (unraw_eq_iff_below_supers _).mp plain] at names
      rw [absolutize_super located, ← names, ← located]

/-- A crooked path of the crate is kept as a path with `super` or with a mark in it. -/
theorem kept_of_crooked (located : m.segments = "crate" :: m.around) (unmarked : m.Unmarked) {first : String}
    {rest : List String} (within : first ∈ pathWords) (crooked : Crooked (first :: rest)) :
    ∃ more, absolutize (first :: rest) m.segments = "crate" :: more ∧ ("super" ∈ more ∨ more.map unraw ≠ more) := by
  have words : unraw "crate" = "crate" ∧ unraw "self" = "self" := by decide
  have bare := unmarked.around located
  simp only [pathWords, List.mem_cons, List.not_mem_nil, or_false] at within
  rcases within with rfl | rfl | rfl
  · refine ⟨rest, absolutize_crate rest _, Or.inr fun plain => ?_⟩
    rcases crooked with ⟨_, same⟩ | marked
    · exact absurd (List.cons.inj same).1 (by decide)
    · exact marked (by rw [List.map_cons, words.1, plain])
  · refine ⟨m.around ++ rest, by rw [absolutize_self, located]; rfl, ?_⟩
    rcases crooked with ⟨more, same⟩ | marked
    · exact Or.inl (by simp [(List.cons.inj same).2])
    · refine Or.inr fun plain => marked ?_
      rw [List.map_append] at plain
      rw [List.map_cons, words.2, (List.append_inj' plain (by simp)).2]
  · refine ⟨_, absolutize_super located, Or.inr fun plain => ?_⟩
    rcases crooked with ⟨_, same⟩ | marked
    · exact absurd (List.cons.inj same).1 (by decide)
    · rw [List.map_append] at plain
      exact marked ((unraw_eq_iff_below_supers _).mpr (List.append_inj' plain (by simp)).2)

end

/-! Where the spellings lead. -/

/-- The ways to write the type of a name as a target in the module that declares it. -/
inductive SpellsType (m : Module) (modules : ModuleImports m) (x : String) : Ty → Prop where
  | alone {own : Ident} (named : unraw own.text = unraw x) : SpellsType m modules x (pathOfNames false [own])
  | paren {target : Ty} (inner : SpellsType m modules x target) : SpellsType m modules x (.paren target)
  | fromSelf {word own : Ident} (self : word.text = "self") (named : unraw own.text = unraw x) :
      SpellsType m modules x (pathOfNames false [word, own])
  | fromCrate {word own : Ident} {names : List Ident} (crate : word.text = "crate") (around : Writes names m.around)
      (named : unraw own.text = unraw x) : SpellsType m modules x (pathOfNames false (word :: (names ++ [own])))
  | fromSuper {word last own : Ident} {above : List String} (super : word.text = "super")
      (around : m.around = above ++ [unraw last.text]) (named : unraw own.text = unraw x) :
      SpellsType m modules x (pathOfNames false [word, last, own])
  /-- By a name under which the module is imported. -/
  | imported {name own : Ident} {import' : Import} (plain : name.text ∉ pathWords)
      (bound : lastImport? m.items (unraw name.text) = some import')
      (denotes : Denotes m modules (some import') import'.rooted import'.path ⟨none, m.around⟩)
      (named : unraw own.text = unraw x) : SpellsType m modules x (pathOfNames false [name, own])

/-- The target goes by an import that does not lead to the module, and how it fails. -/
inductive LosesType (m : Module) : Ty → ResolutionKind → Prop where
  | paren {target : Ty} {kind : ResolutionKind} (inner : LosesType m target kind) : LosesType m (.paren target) kind
  /-- The import is of the crate, but its path is kept in a form in which no module has it. -/
  | unloaded {name own : Ident} {import' : Import} {first : String} {rest : List String} (plain : name.text ∉ pathWords)
      (bound : lastImport? m.items (unraw name.text) = some import') (path : import'.path = first :: rest)
      (within : first ∈ pathWords) (crooked : Crooked import'.path) :
      LosesType m (pathOfNames false [name, own]) .moduleLoad
  /-- The import goes through another one. -/
  | unfollowed {name own : Ident} {import' : Import} {first : String} {rest : List String}
      (plain : name.text ∉ pathWords) (bound : lastImport? m.items (unraw name.text) = some import')
      (path : import'.path = first :: rest) (through : first ∉ pathWords) :
      LosesType m (pathOfNames false [name, own]) .notAStruct

section

variable {t : Tree} {layout : CrateLayout} {m : Module} {modules : ModuleImports m} {x : String} {target : Ty}
  {kind : ResolutionKind} {own : Ident}

theorem of_path_below (more : List String) (name : String) :
    AliasTarget.ofPath? ("crate" :: more ++ [name]) = some (.inModule ("crate" :: more) name) := by
  unfold AliasTarget.ofPath?
  rw [List.getLast?_concat, List.dropLast_concat]
  cases more <;> rfl

theorem of_path_outside {first : String} (rest : List String) (outside : first ≠ "crate") :
    AliasTarget.ofPath? (first :: rest) = none := by
  unfold AliasTarget.ofPath?
  split
  · next same _ => exact absurd (List.cons.inj same).1 outside
  · rfl

/-- A path of several names points to what the absolute path of it is. -/
theorem classify_names (first second : Ident) (rest : List Ident) :
    AliasTarget.classify m (pathOfNames false (first :: second :: rest))
      = (AliasTarget.ofPath? (AliasTarget.absolutePath m (unraw first.text)
          ((second :: rest).map fun name => unraw name.text))).getD
        (.foreign (Signature.ty m.imports (pathOfNames false (first :: second :: rest)))) := by
  simp [AliasTarget.classify, pathOfNames, Segment.name, Function.comp_def]

theorem absolute_path_from_word {word : Ident} (listed : word.text ∈ pathWords) (rest : List String) :
    AliasTarget.absolutePath m (unraw word.text) rest = absolutize (word.text :: rest) m.segments := by
  have never : word.text ∈ Lexer.neverRaw := by
    revert listed
    generalize word.text = word
    revert word
    decide
  have same : unraw word.text = word.text := (Ident.unraw_eq_iff never).mpr rfl
  have condition : word.text = "crate" ∨ word.text = "self" ∨ word.text = "super" := by
    simpa [pathWords] using listed
  rw [same, AliasTarget.absolutePath]
  split
  · rw [if_pos condition]
  · rfl

/-- A path through an import points to what the path that is kept for the import is. -/
theorem absolute_path_of_import {name : Ident} {import' : Import} (plain : name.text ∉ pathWords)
    (bound : lastImport? m.items (unraw name.text) = some import') (rest : List String) :
    AliasTarget.absolutePath m (unraw name.text) rest = absolutize import'.path m.segments ++ rest := by
  have found : m.imports.get? (unraw name.text) = some (absolutize import'.path m.segments) := by
    rw [Module.imports, ImportMap.get_of_items, last_leaf_of_last_import bound]
    rfl
  have other {word : String} (listed : word ∈ pathWords) (never : word ∈ Lexer.neverRaw) : unraw name.text ≠ word := by
    rw [Ne, Ident.unraw_eq_iff never]
    rintro rfl
    exact plain listed
  have words : ¬ (unraw name.text = "crate" ∨ unraw name.text = "self" ∨ unraw name.text = "super") :=
    not_or.mpr ⟨other (by decide) (by decide), not_or.mpr ⟨other (by decide) (by decide), other (by decide) (by decide)⟩⟩
  rw [AliasTarget.absolutePath, found]
  simp only [if_neg words]

theorem classify_import {name : Ident} {import' : Import} (plain : name.text ∉ pathWords)
    (bound : lastImport? m.items (unraw name.text) = some import') :
    AliasTarget.classify m (pathOfNames false [name, own])
      = (AliasTarget.ofPath? (absolutize import'.path m.segments ++ [unraw own.text])).getD
          (.foreign (Signature.ty m.imports (pathOfNames false [name, own]))) := by
  rw [classify_names, absolute_path_of_import plain bound]
  rfl

/-- A spelling has no arguments. -/
theorem SpellsType.plain (spells : SpellsType m modules x target) : target.hasArgs = false := by
  have names (rooted : Bool) (written : List Ident) : (pathOfNames rooted written).hasArgs = false := by
    simp [Ty.hasArgs, Segment.hasArgs, Function.comp_def]
  induction spells with
  | paren _ ih => exact ih
  | _ => exact names false _

theorem SpellsType.points (spells : SpellsType m modules x target) (loaded : m.Loaded t layout)
    (declared : ∃ item ∈ m.items, item.DeclaresType x) (kept : ∀ kind, ¬ LosesType m target kind) :
    AliasTarget.classify m target = .here (unraw x) ∨ AliasTarget.classify m target = .inModule m.segments (unraw x) := by
  have located := loaded.located
  have below : AliasTarget.ofPath? (m.segments ++ [unraw x]) = some (.inModule m.segments (unraw x)) := by
    rw [located]
    exact of_path_below m.around (unraw x)
  induction spells with
  | @alone own named =>
      obtain ⟨item, kind, found, isType⟩ := Symbol.find_type declared
      have same : unraw (unraw own.text) = unraw x := own.unraw_bare.trans named
      have typed : (Symbol.find? m.symbols (unraw own.text)).any (·.kind.isType) = true := by
        rw [Symbol.find_congr same, Module.symbols, found]
        exact isType
      rw [named] at typed
      apply Or.inl
      simp only [AliasTarget.classify, List.map_cons, List.map_nil, Segment.name, named, typed, if_true]
  | paren inner ih =>
      rw [AliasTarget.classify]
      exact ih fun kind loses => kept kind (.paren loses)
  | @fromSelf word own self named =>
      apply Or.inr
      rw [classify_names, absolute_path_from_word (by simp [self, pathWords]), self, absolutize_self]
      simp [named, below]
  | @fromCrate word own names crate around named =>
      apply Or.inr
      have whole : ("crate" :: (names ++ [own]).map fun name => unraw name.text) = m.segments ++ [unraw x] := by
        have written : (names.map fun name => unraw name.text) = m.around := around
        simp [written, named, located]
      obtain ⟨second, rest, shape⟩ := List.exists_cons_of_ne_nil (l := names ++ [own]) (by simp)
      rw [shape] at whole ⊢
      rw [classify_names, absolute_path_from_word (by simp [crate, pathWords]), crate, absolutize_crate, whole, below]
      rfl
  | @fromSuper word last own above super around named =>
      apply Or.inr
      have plain : unraw last.text ≠ "super" := by
        rintro same
        exact loaded.plain_around (unraw last.text) (by simp [around]) (by simp [same, pathWords])
      have climbs : Module.ups ["super", unraw last.text, unraw own.text] = 1 := by simp [Module.ups, plain]
      rw [classify_names, absolute_path_from_word (by simp [super, pathWords]), super]
      simp only [List.map_cons, List.map_nil]
      rw [absolutize_super located, climbs, around, List.length_append, List.length_singleton, Nat.add_sub_cancel,
        List.take_left']
      · rw [located, around] at below
        simp [named] at below ⊢
        simp [below, located, around]
      · rfl
  | @imported name own import' plain bound denotes named =>
      apply Or.inr
      obtain ⟨first, rest, path⟩ : ∃ first rest, import'.path = first :: rest :=
        List.exists_cons_of_ne_nil (last_leaf_path_ne_nil (last_leaf_of_last_import bound))
      by_cases within : first ∈ pathWords
      · have straight : ¬ Crooked import'.path := fun crooked =>
          kept .moduleLoad (.unloaded plain bound path within crooked)
        rw [path] at straight denotes
        rw [classify_import plain bound, path, kept_of_straight located loaded.unmarked within straight denotes, named,
          below]
        rfl
      · exact absurd (.unfollowed plain bound path within) (kept .notAStruct)

theorem Module.Loaded.leads_to_itself {name : String} (loaded : m.Loaded t layout)
    (points : AliasTarget.classify m target = .here name ∨ AliasTarget.classify m target = .inModule m.segments name) :
    m.Leads t layout target m name := by
  unfold Leads
  rcases points with here | elsewhere
  · rw [here]
    exact ⟨rfl, rfl⟩
  · rw [elsewhere]
    exact ⟨loaded.again.2.2, rfl⟩

/-- A lost spelling leads out of the crate, or to what no crate has. -/
theorem LosesType.points (loses : LosesType m target kind) (loaded : m.Loaded t layout) :
    (kind = .notAStruct ∧ ∃ written, AliasTarget.classify m target = .foreign written)
      ∨ (kind = .moduleLoad ∧ ∃ rest name, AliasTarget.classify m target = .inModule ("crate" :: rest) name
          ∧ ("super" ∈ rest ∨ rest.map unraw ≠ rest)) := by
  induction loses with
  | paren inner ih => simpa only [AliasTarget.classify] using ih
  | @unloaded name own import' first rest plain bound path within crooked =>
      rw [path] at crooked
      obtain ⟨more, absolute, strange⟩ := kept_of_crooked loaded.located loaded.unmarked within crooked
      refine Or.inr ⟨rfl, more, unraw own.text, ?_, strange⟩
      rw [classify_import plain bound, path, absolute, of_path_below]
      rfl
  | @unfollowed name own import' first rest plain bound path through =>
      have other {word : String} (listed : word ∈ pathWords) : first ≠ word := by
        rintro rfl
        exact through listed
      refine Or.inl ⟨rfl, ?_⟩
      rw [classify_import plain bound, path, absolutize_straight (other (by decide)) (other (by decide)),
        List.cons_append, of_path_outside _ (other (by decide))]
      exact ⟨_, rfl⟩

theorem load_strange {rest : List String} (strange : "super" ∈ rest ∨ rest.map unraw ≠ rest) (t : Tree)
    (layout : CrateLayout) : ∃ e, Module.loadSegments t layout ("crate" :: rest) = .error e := by
  rcases strange with up | marked
  · cases found : Module.loadSegments t layout ("crate" :: rest) with
    | error e => exact ⟨e, rfl⟩
    | ok n => exact absurd (by decide) (Module.plain_of_load found "super" up)
  · refine Module.load_marked t layout rfl fun plain => marked ?_
    exact (List.cons.inj plain).2

end

end Accessors
