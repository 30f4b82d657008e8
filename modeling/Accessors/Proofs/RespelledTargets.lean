import Accessors.Proofs.AbsoluteImports
import Accessors.Proofs.TargetSpellings
import Mathlib.Data.List.Forall2

/-!
What resolution answers in two crates that differ in how one alias writes its target. The crates load alike otherwise,
so the walks through them keep in step as long as both spellings lead to the type they mean. A spelling that is lost is
answered by one kind of error.
-/

namespace Accessors

open File (Tree)

/-! Crates that differ in one target. -/

/-- Items that say the same where they stand; what stands in a module inside is told there. -/
inductive Item.SameHere : Item → Item → Prop where
  | same (item : Item) : SameHere item item
  | module (name : Ident) (file : Option String) (body body' : Option (List Item)) :
      SameHere (.module name file body) (.module name file body')

/-- Items that say the same, but that the target of an alias of the name may be another. -/
inductive Item.Respelled (name : String) (target target' : Ty) : Item → Item → Prop where
  | same {item item' : Item} (same : item.SameHere item') : Respelled name target target' item item'
  | replaced {decl : AliasDecl} (named : unraw decl.name.text = unraw name) (written : decl.target = target) :
      Respelled name target target' (.typeAlias decl) (.typeAlias { decl with target := target' })

/-- Two crates that load alike, but that one alias in one module has another target. -/
structure Respelled (t t' : Tree) (layout : CrateLayout) (m m' : Module) (name : String) (target target' : Ty) :
    Prop where
  loaded : m.Loaded t layout
  loaded' : m'.Loaded t' layout
  segments : m'.segments = m.segments
  items : List.Forall₂ (Item.Respelled name target target') m.items m'.items
  elsewhere : ∀ rest, "crate" :: rest ≠ m.segments →
    (∃ n n', Module.loadSegments t layout ("crate" :: rest) = .ok n
        ∧ Module.loadSegments t' layout ("crate" :: rest) = .ok n' ∧ List.Forall₂ Item.SameHere n.items n'.items)
      ∨ ((∃ e, Module.loadSegments t layout ("crate" :: rest) = .error e)
        ∧ ∃ e, Module.loadSegments t' layout ("crate" :: rest) = .error e)

theorem Item.SameHere.told {item item' : Item} (same : item.SameHere item') {targets : Ty → Ty → Prop}
    (keep : ∀ target, targets target target) :
    item'.declared? = item.declared? ∧ item'.leaves = item.leaves ∧ Item.Alike targets item item' := by
  cases same with
  | same => exact ⟨rfl, rfl, .refl keep item⟩
  | module name file body body' => exact ⟨rfl, rfl, .other (by simp) (by simp) (by simp) (by simp)⟩

/-! Lookup in lists that agree one by one. -/

section

variable {α β : Type} {R : α → β → Prop} {xs : List α} {ys : List β}

theorem rel_find {p : α → Bool} {q : β → Bool} (each : List.Forall₂ R xs ys) (tests : ∀ x y, R x y → q y = p x) :
    Option.Rel R (xs.find? p) (ys.find? q) := by
  induction each with
  | nil => exact .none
  | @cons x y xs ys here _ ih =>
      rw [List.find?_cons, List.find?_cons, tests x y here]
      cases p x with
      | true => exact .some here
      | false => exact ih

theorem rel_head (each : List.Forall₂ R xs ys) : Option.Rel R xs.head? ys.head? := by
  cases each with
  | nil => exact .none
  | cons here _ => exact .some here

theorem rel_or {a c : Option α} {b d : Option β} (first : Option.Rel R a b) (second : Option.Rel R c d) :
    Option.Rel R (a.or c) (b.or d) := by
  cases first with
  | some here => exact .some here
  | none => exact second

end

/-- Declarations that lookup takes alike. -/
def Symbol.Alike (targets : Ty → Ty → Prop) (s s' : Symbol) : Prop :=
  s'.name = s.name ∧ s'.kind = s.kind ∧ Item.Alike targets s.item s'.item

theorem Symbol.rel_lookup {targets : Ty → Ty → Prop} {symbols symbols' : List Symbol}
    (each : List.Forall₂ (Symbol.Alike targets) symbols symbols') (name : String) :
    Option.Rel (Symbol.Alike targets) (find? symbols name) (find? symbols' name) := by
  have named : List.Forall₂ (Symbol.Alike targets) (symbols.filter (·.name == unraw name))
      (symbols'.filter (·.name == unraw name)) := by
    refine List.rel_filter (fun s s' alike => ?_) each
    simp only [alike.1]
  exact rel_or (rel_find named fun s s' alike => by rw [alike.2.1]) (rel_head named)

/-- Modules are alike whose items are, one by one. -/
theorem Module.Alike.of_items {targets : Module → Module → Ty → Ty → Prop} {n n' : Module} {R : Item → Item → Prop}
    (segments : n'.segments = n.segments) (items : List.Forall₂ R n.items n'.items)
    (told : ∀ item item', R item item' →
      item'.declared? = item.declared? ∧ item'.leaves = item.leaves ∧ Item.Alike (targets n n') item item') :
    n.Alike targets n' := by
  refine ⟨segments, ?_, fun name => ?_⟩
  · have leaves : List.Forall₂ Eq (n.items.flatMap Item.leaves) (n'.items.flatMap Item.leaves) := by
      refine List.rel_flatMap items fun item item' here => ?_
      rw [(told item item' here).2.1]
      exact List.forall₂_same.mpr fun _ _ => rfl
    rw [List.forall₂_eq_eq_eq] at leaves
    rw [Module.imports, Module.imports, ImportMap.of_items_by_leaves, ImportMap.of_items_by_leaves, leaves, segments]
  · have symbols : List.Forall₂ (Symbol.Alike (targets n n')) n.symbols n'.symbols := by
      refine List.rel_filterMap (fun item item' here => ?_) items
      obtain ⟨declared, _, alike⟩ := told item item' here
      unfold Symbol.ofItem?
      rw [declared]
      cases item.declared? with
      | none => exact .none
      | some pair => exact .some ⟨rfl, rfl, alike⟩
    have found := Symbol.rel_lookup symbols name
    revert found
    generalize Symbol.find? n.symbols name = here
    generalize Symbol.find? n'.symbols name = there
    rintro (alike | _)
    · exact .some alike.2
    · exact .none

namespace Respelled

variable {t t' : Tree} {layout : CrateLayout} {m m' : Module} {name : String} {target target' : Ty}

/-- Targets that are the same, or are the given ones in the modules where they differ. -/
def targets (m m' : Module) (target target' : Ty) (n n' : Module) (own own' : Ty) : Prop :=
  own' = own ∨ n = m ∧ n' = m' ∧ own = target ∧ own' = target'

theorem modules (respelled : Respelled t t' layout m m' name target target') :
    m.Alike (targets m m' target target') m' := by
  refine .of_items respelled.segments respelled.items fun item item' here => ?_
  cases here with
  | same same => exact same.told fun _ => Or.inl rfl
  | replaced named written => exact ⟨rfl, rfl, .typeAlias (Or.inr ⟨rfl, rfl, written, rfl⟩)⟩

/-- Where both targets lead to the type of the module, the crates correspond. -/
def correspondence (respelled : Respelled t t' layout m m' name target target') {x : String}
    (declared : ∃ item ∈ m.items, item.DeclaresType x) (plain : target.hasArgs = false) (plain' : target'.hasArgs = false)
    (points : AliasTarget.classify m target = .here (unraw x)
      ∨ AliasTarget.classify m target = .inModule m.segments (unraw x))
    (points' : AliasTarget.classify m target' = .here (unraw x)
      ∨ AliasTarget.classify m target' = .inModule m.segments (unraw x)) : Correspondence t t' layout where
  targets := targets m m' target target'
  errors e e' := e'.kind = e.kind
  sameError _ := rfl
  loads rest := by
    by_cases here : "crate" :: rest = m.segments
    · have there : "crate" :: rest = m'.segments := here.trans respelled.segments.symm
      have found := respelled.loaded.again.2.2
      have found' := respelled.loaded'.again.2.2
      rw [← here] at found
      rw [← there] at found'
      rw [found, found']
      exact .loaded respelled.modules
    · obtain ⟨n, n', found, found', items⟩ | ⟨⟨e, failed⟩, e', failed'⟩ := respelled.elsewhere rest here
      · rw [found, found']
        refine .loaded (.of_items ?_ items fun item item' same => same.told fun _ => Or.inl rfl)
        rw [Module.segments_of_load_segments found, Module.segments_of_load_segments found']
      · rw [failed, failed']
        exact .failed ((Module.load_error failed').trans (Module.load_error failed).symm)
  leads {n n' own own'} alike same := by
    rcases same with same | ⟨rfl, rfl, rfl, rfl⟩
    · exact Or.inl same
    · obtain ⟨item, kind, lookup, _⟩ := Symbol.find_type declared
      have finds : n.Finds (unraw x) item := by
        refine ⟨⟨unraw x, kind, item⟩, ?_, rfl⟩
        rw [← lookup]
        obtain ⟨_, _, _, ⟨called, _, same⟩, _⟩ := declared
        have again : unraw (unraw x) = unraw x := by rw [← same]; exact called.unraw_bare
        exact Symbol.find_congr again
      rw [← alike.classify, ← respelled.segments] at points'
      exact Or.inr ⟨plain, plain', n, n', unraw x, item, alike, respelled.loaded.leads_to_itself points,
        respelled.loaded'.leads_to_itself points', finds⟩

end Respelled

/-! What resolution answers. -/

/-- The answers are the same struct, or errors of one kind. -/
def SameResult : Except ResolutionError ResolvedStruct → Except ResolutionError ResolvedStruct → Prop
  | .ok s, .ok s' => s' = s
  | .error e, .error e' => e'.kind = e.kind
  | _, _ => False

/-- The answer is an error of the kind. -/
def FailsBy (kind : ResolutionKind) (answer : Except ResolutionError ResolvedStruct) : Prop :=
  ∃ e, answer = .error e ∧ e.kind = kind

section

variable {t t' : Tree} {layout : CrateLayout} {m m' : Module} {modules : ModuleImports m} {name x : String}
  {target target' : Ty} {kind : ResolutionKind} {decl decl' : AliasDecl}

theorem FailsBy.same {a a' : Except ResolutionError ResolvedStruct} (fails : FailsBy kind a) (fails' : FailsBy kind a') :
    SameResult a a' := by
  obtain ⟨e, rfl, here⟩ := fails
  obtain ⟨e', rfl, there⟩ := fails'
  exact there.trans here.symm

theorem SameResult.symm {a a' : Except ResolutionError ResolvedStruct} (same : SameResult a a') : SameResult a' a := by
  revert same
  cases a <;> cases a'
  · exact Eq.symm
  · exact id
  · exact id
  · exact Eq.symm

theorem SameResult.fails {a a' : Except ResolutionError ResolvedStruct} (same : SameResult a a') (fails : FailsBy kind a) :
    FailsBy kind a' := by
  obtain ⟨e, rfl, here⟩ := fails
  cases a' with
  | ok s => exact same.elim
  | error e' => exact ⟨e', rfl, same.trans here⟩

theorem fails_of_points
    (points : (kind = .notAStruct ∧ ∃ written, AliasTarget.classify m decl.target = .foreign written)
      ∨ (kind = .moduleLoad ∧ ∃ rest name, AliasTarget.classify m decl.target = .inModule ("crate" :: rest) name
          ∧ ("super" ∈ rest ∨ rest.map unraw ≠ rest)))
    (finds : m.Finds name (.typeAlias decl)) : FailsBy kind (resolveStruct t layout m name) := by
  have room : ¬ (AliasWalk.start m name decl.target).visited.length > longestChain := by
    simp [AliasWalk.start, longestChain]
  have stops {e : ResolutionError} (lost : followTarget t layout name m decl.target = .error e) :
      resolveStruct t layout m name = .error e := by
    refine resolve_of_failed_walk finds (AliasWalk.follow_of_error ?_)
    rw [AliasWalk.round, if_neg room]
    simp only [AliasWalk.start, lost]
  rcases points with ⟨rfl, written, outside⟩ | ⟨rfl, rest, own, inside, strange⟩
  · exact ⟨_, stops (by rw [followTarget, outside]), rfl⟩
  · obtain ⟨e, failed⟩ := load_strange strange t layout
    refine ⟨e, stops ?_, Module.load_error failed⟩
    rw [followTarget, inside]
    simp only [failed]
    rfl

/-- Two spellings of a type as the target of an alias are answered by the same struct or errors of one kind, exactly if
each of them that is lost, is lost in the way in which both answers are errors. If neither is lost, every name of every
module is answered so. -/
theorem spelling_kept_iff (respelled : Respelled t t' layout m m' name target target')
    (declared : ∃ item ∈ m.items, item.DeclaresType x) (spells : SpellsType m modules x target)
    (spells' : SpellsType m modules x target') (finds : m.Finds name (.typeAlias decl)) (written : decl.target = target)
    (finds' : m'.Finds name (.typeAlias decl')) (written' : decl'.target = target') :
    (SameResult (resolveStruct t layout m name) (resolveStruct t' layout m' name)
        ↔ ∀ kind, LosesType m target kind ∨ LosesType m target' kind →
          FailsBy kind (resolveStruct t layout m name) ∧ FailsBy kind (resolveStruct t' layout m' name))
      ∧ ((∀ kind, ¬ LosesType m target kind ∧ ¬ LosesType m target' kind) →
          ∀ rest n n', Module.loadSegments t layout ("crate" :: rest) = .ok n →
            Module.loadSegments t' layout ("crate" :: rest) = .ok n' →
            ∀ asked, SameResult (resolveStruct t layout n asked) (resolveStruct t' layout n' asked)) := by
  have everywhere (kept : ∀ kind, ¬ LosesType m target kind ∧ ¬ LosesType m target' kind) (rest : List String)
      (n n' : Module) (found : Module.loadSegments t layout ("crate" :: rest) = .ok n)
      (found' : Module.loadSegments t' layout ("crate" :: rest) = .ok n') (asked : String) :
      SameResult (resolveStruct t layout n asked) (resolveStruct t' layout n' asked) := by
    have points := spells.points respelled.loaded declared fun kind => (kept kind).1
    have points' := spells'.points respelled.loaded declared fun kind => (kept kind).2
    let c := respelled.correspondence declared spells.plain spells'.plain points points'
    have loads := c.loads rest
    rw [found, found'] at loads
    cases loads with
    | loaded alike =>
        have answers := c.answers alike asked
        revert answers
        generalize resolveStruct t layout n asked = answer
        generalize resolveStruct t' layout n' asked = answer'
        rintro (same | _)
        · exact same
        · exact rfl
  refine ⟨⟨fun same kind lost => ?_, fun lost => ?_⟩, everywhere⟩
  · rcases lost with loses | loses
    · have fails : FailsBy kind (resolveStruct t layout m name) := by
        refine fails_of_points ?_ finds
        rw [written]
        exact loses.points respelled.loaded
      exact ⟨fails, same.fails fails⟩
    · have fails : FailsBy kind (resolveStruct t' layout m' name) := by
        refine fails_of_points ?_ finds'
        rw [written']
        simp only [respelled.modules.classify]
        exact loses.points respelled.loaded
      exact ⟨same.symm.fails fails, fails⟩
  · by_cases kept : ∀ kind, ¬ LosesType m target kind ∧ ¬ LosesType m target' kind
    · obtain ⟨rest, found⟩ := respelled.loaded
      have segments := Module.segments_of_load_segments found
      have found' := respelled.loaded'.again.2.2
      rw [respelled.segments, segments] at found'
      exact everywhere kept rest m m' found found' name
    · obtain ⟨kind, loses⟩ := not_forall.mp kept
      have either : LosesType m target kind ∨ LosesType m target' kind := by
        rw [← not_or, not_not] at loses
        exact loses
      exact (lost kind either).1.same (lost kind either).2

end

namespace TargetSample

def below : Ident := ⟨"deep", by decide +kernel⟩

def struct : StructDecl := ⟨⟨"Leaf", by decide +kernel⟩, ⟨[], []⟩, .unit⟩

def self : Ident := AbsoluteSample.self

def super : Ident := AbsoluteSample.super

def again : Ident := SuggestionSample.plain

def aliased (target : Ty) : AliasDecl := ⟨⟨"Stem", by decide +kernel⟩, [], target⟩

/-- A module that is imported into itself, with an alias of its struct. -/
def items (target : Ty) : List Item :=
  [.use false (.path self (.path super (.rename below again))), .struct struct, .typeAlias (aliased target)]

def text (target : String) : String :=
  "mod deep \x7b use self::super::deep as m; struct Leaf; type Stem = " ++ target ++ "; \x7d"

def tree (target : String) : Tree := ⟨[(["lib.rs".toList], .file (.text (text target)))], []⟩

def layout : CrateLayout := ⟨⟨"/"⟩, "sample", ⟨"/lib.rs"⟩⟩

def entry (target : Ty) : Module := ⟨["crate"], ⟨"/lib.rs"⟩, [.module below none (some (items target))]⟩

def inner (target : Ty) : Module := ⟨["crate", "deep"], ⟨"/lib.rs"⟩, items target⟩

def import' : Import := ⟨⟨"m", ["self", "super", "deep"]⟩, false⟩

def alone : Ty := pathOfNames false [struct.name]

def fromSuper : Ty := pathOfNames false [super, below, struct.name]

def imported : Ty := pathOfNames false [again, struct.name]

def modules (target : Ty) : ModuleImports (inner target) := ⟨fun _ => none, fun _ _ found => by cases found⟩

/-- The text has the target. -/
def Reads (text' : String) (target : Ty) : Prop := Parsing.fileItems (text text') = .ok (entry target).items

section

variable {text' text'' : String} {target target' : Ty}

theorem start_of_reads (reads : Reads text' target) :
    Walk.start (tree text') layout.entry = .ok ⟨layout.entry, (entry target).items, ⟨"/"⟩, ⟨"/"⟩⟩ := by
  have read : (tree text').readText layout.entry = .ok (text text') := by rfl
  unfold Walk.start itemsOf
  rw [read, Outcome.map_error_of_ok]
  simp only [bind, Except.bind]
  rw [reads]
  rfl

theorem entry_loads (reads : Reads text' target) :
    Module.loadSegments (tree text') layout ["crate"] = .ok (entry target) :=
  Module.load_segments_ok.mpr ⟨_, _, start_of_reads reads, rfl, rfl⟩

theorem inner_loads (reads : Reads text' target) :
    Module.loadSegments (tree text') layout ["crate", "deep"] = .ok (inner target) :=
  Module.load_segments_ok.mpr ⟨_, _, start_of_reads reads, rfl, rfl⟩

theorem nothing_below (reads : Reads text' target) {first : String} {rest : List String}
    (other : first ≠ "deep" ∨ rest ≠ []) :
    ∃ e, Module.loadSegments (tree text') layout ("crate" :: first :: rest) = .error e := by
  cases loaded : Module.loadSegments (tree text') layout ("crate" :: first :: rest) with
  | error e => exact ⟨e, rfl⟩
  | ok n =>
      obtain ⟨walk, last, opened, walked, _⟩ := Module.load_segments_ok.mp loaded
      obtain rfl := Except.ok.inj ((start_of_reads reads).symm.trans opened)
      rw [List.drop_one, List.tail_cons, List.foldlM_cons] at walked
      obtain ⟨next, step, walked⟩ := Outcome.bind_ok.mp walked
      by_cases named : first = "deep"
      · subst named
        obtain rfl := Except.ok.inj step
        obtain ⟨second, more, rfl⟩ := List.exists_cons_of_ne_nil (other.resolve_left (· rfl))
        rw [List.foldlM_cons] at walked
        obtain ⟨_, step, _⟩ := Outcome.bind_ok.mp walked
        cases step
      · have undeclared : (entry target).items.findSome? (moduleDeclared first) = none := by
          have differs : ¬ unraw below.text = first := fun same => named (same.symm.trans (by decide +kernel))
          simp [entry, moduleDeclared, differs]
        unfold Walk.descend at step
        simp only [undeclared] at step
        cases step

theorem respelled (reads : Reads text' target) (reads' : Reads text'' target') :
    Respelled (tree text') (tree text'') layout (inner target) (inner target') "Stem" target target' where
  loaded := ⟨["deep"], inner_loads reads⟩
  loaded' := ⟨["deep"], inner_loads reads'⟩
  segments := rfl
  items := .cons (.same (.same _)) (.cons (.same (.same _)) (.cons (.replaced rfl rfl) .nil))
  elsewhere rest other := by
    cases rest with
    | nil => exact Or.inl ⟨_, _, entry_loads reads, entry_loads reads', .cons (.module _ _ _ _) .nil⟩
    | cons first rest =>
        have elsewhere : first ≠ "deep" ∨ rest ≠ [] := by
          by_contra here
          obtain ⟨rfl, rfl⟩ : first = "deep" ∧ rest = [] := by simpa [not_or] using here
          exact other rfl
        exact Or.inr ⟨nothing_below reads elsewhere, nothing_below reads' elsewhere⟩

theorem finds (target : Ty) : (inner target).Finds "Stem" (.typeAlias (aliased target)) := by
  have declares : (Item.typeAlias (aliased target)).Declares "Stem" .typeAlias := ⟨(aliased target).name, rfl, rfl⟩
  have other : ∀ earlier ∈ (items target).take 2, ¬ earlier.DeclaresType "Stem" := by
    have differs : unraw "Leaf" ≠ unraw "Stem" := by decide +kernel
    simp only [items, List.take_succ_cons, List.take_zero, List.mem_cons, List.not_mem_nil, or_false]
    rintro _ (rfl | rfl) ⟨kind, ⟨own, ⟨⟩, named⟩, _⟩
    exact differs named
  exact ⟨_, Symbol.find_first_type ⟨⟨.typeAlias, declares, rfl⟩, _, [], rfl, other⟩ declares, rfl⟩

theorem finds_struct (target : Ty) : (inner target).Finds "Leaf" (.struct struct) := by
  have declares : (Item.struct struct).Declares "Leaf" .struct := ⟨struct.name, rfl, rfl⟩
  have other : ∀ earlier ∈ (items target).take 1, ¬ earlier.DeclaresType "Leaf" := by
    simp only [items, List.take_succ_cons, List.take_zero, List.mem_cons, List.not_mem_nil, or_false]
    rintro _ rfl ⟨kind, ⟨own, ⟨⟩, _⟩, _⟩
  exact ⟨_, Symbol.find_first_type ⟨⟨.struct, declares, rfl⟩, _, _, rfl, other⟩ declares, rfl⟩

theorem declared (target : Ty) : ∃ item ∈ (inner target).items, item.DeclaresType "Leaf" :=
  ⟨.struct struct, by simp [inner, items], .struct, ⟨struct.name, rfl, rfl⟩, rfl⟩

theorem spells_alone (target : Ty) : SpellsType (inner target) (modules target) "Leaf" alone := .alone rfl

theorem spells_from_super (target : Ty) : SpellsType (inner target) (modules target) "Leaf" fromSuper :=
  have marks : unraw "deep" = "deep" := by decide +kernel
  have around : (inner target).around = [] ++ [unraw below.text] := congrArg (fun name => [name]) marks.symm
  .fromSuper rfl around rfl

theorem bound (target : Ty) : lastImport? (inner target).items "m" = some import' := rfl

theorem spells_imported (target : Ty) : SpellsType (inner target) (modules target) "Leaf" imported := by
  have marks : unraw "deep" = "deep" := by decide +kernel
  have up : (inner target).upward ["super", "deep"] = ⟨none, (inner target).around⟩ := by
    simp [Module.upward, Module.ups, Module.around, inner, ItemPath.below, marks]
  refine .imported (by decide +kernel) (bound target) ?_ rfl
  rw [← up]
  exact .self rfl (by simp [Module.ups, Module.around, inner])

/-- Neither a name alone nor a path from `super` can be lost. -/
theorem kept_alone (target : Ty) (kind : ResolutionKind) : ¬ LosesType (inner target) alone kind := by
  rintro ⟨⟩

theorem kept_from_super (target : Ty) (kind : ResolutionKind) : ¬ LosesType (inner target) fromSuper kind := by
  rintro ⟨⟩

theorem lost_imported (target : Ty) : LosesType (inner target) imported .moduleLoad :=
  .unloaded (by decide +kernel) (bound target) rfl (by decide) (Or.inl ⟨["deep"], rfl⟩)

end

theorem reads_alone : Reads "Leaf" alone := by rfl

theorem reads_from_super : Reads "super::deep::Leaf" fromSuper := by rfl

theorem reads_imported : Reads "m::Leaf" imported := by rfl

end TargetSample

open TargetSample in
theorem spellings_of_sample_kept :
    Respelled (tree "Leaf") (tree "super::deep::Leaf") layout (inner alone) (inner fromSuper) "Stem" alone fromSuper
      ∧ SameResult (resolveStruct (tree "Leaf") layout (inner alone) "Stem")
          (resolveStruct (tree "super::deep::Leaf") layout (inner fromSuper) "Stem") := by
  have respelled := respelled reads_alone reads_from_super
  refine ⟨respelled, (spelling_kept_iff respelled (declared alone) (spells_alone alone) (spells_from_super alone)
    (finds alone) rfl (finds fromSuper) rfl).1.mpr fun kind lost => ?_⟩
  exact absurd lost (not_or.mpr ⟨kept_alone alone kind, kept_from_super alone kind⟩)

open TargetSample in
/-- The import means the module, but its path is kept as that of a module `super` in it. -/
theorem import_climbing_from_self_lost :
    Respelled (tree "Leaf") (tree "m::Leaf") layout (inner alone) (inner imported) "Stem" alone imported
      ∧ SpellsType (inner alone) (modules alone) "Leaf" alone ∧ SpellsType (inner alone) (modules alone) "Leaf" imported
      ∧ resolveStruct (tree "Leaf") layout (inner alone) "Stem" = .ok (.ofDecl "Stem" (inner alone) struct)
      ∧ FailsBy .moduleLoad (resolveStruct (tree "m::Leaf") layout (inner imported) "Stem") := by
  have respelled := respelled reads_alone reads_imported
  have leads : (inner alone).Leads (tree "Leaf") layout alone (inner alone) "Leaf" := by
    have marks : unraw "Leaf" = "Leaf" := by decide +kernel
    have points := (spells_alone alone).points respelled.loaded (declared alone) (kept_alone alone)
    rw [marks] at points
    exact respelled.loaded.leads_to_itself points
  have unseen : visitKey (inner alone) "Leaf" ∉ [visitKey (inner alone) "Stem"] := by
    have key (name : String) : visitKey (inner alone) name = "crate::deep::" ++ name := rfl
    rw [key, key]
    decide +kernel
  have arrived : (AliasWalk.start (inner alone) "Stem" alone).round (tree "Leaf") layout "Stem"
      = .ok (.arrived (inner alone) struct) :=
    AliasWalk.round_ok.mpr ⟨by simp [AliasWalk.start, longestChain], inner alone, "Leaf", leads, unseen,
      AliasWalk.meet_arrived.mpr ⟨finds_struct alone, rfl, rfl⟩⟩
  refine ⟨respelled, spells_alone alone, spells_imported alone, ?_, ?_⟩
  · rw [resolve_alias (finds alone)]
    simp only [aliased, AliasWalk.follow_of_arrived arrived, bind, Except.bind, ne_eq, not_true_eq_false, if_false]
  · exact fails_of_points (lost_imported imported |>.points respelled.loaded') (finds imported)

end Accessors
