import Accessors.Crate.Alias
import Accessors.Proofs.Outcome

/-!
The path of a module as a text names the module. Its segments are names of modules, no name holds a colon, and
pieces without colons can be read back from the text that joins them. So the key of a visited declaration stands
for one module and one name.
-/

namespace Accessors

namespace Text

/-- A text without a colon, as the pieces of a path are. -/
def Colonless (text : String) : Prop := ':' ∉ text.toList

/-- The first piece can be read back from a text that goes on with a colon after it. -/
theorem colonless_append_inj {a b : String} {restA restB : List Char} (plainA : Colonless a)
    (plainB : Colonless b) (same : a.toList ++ ':' :: restA = b.toList ++ ':' :: restB) :
    a = b ∧ restA = restB := by
  have cut : a.toList = b.toList ∧ ':' = ':' ∧ restA = restB := by
    rcases List.append_eq_append_iff.mp same with ⟨extra, first, second⟩ | ⟨extra, first, second⟩
    · cases extra with
      | nil => simp_all
      | cons c extra =>
          have colon : c = ':' := (List.cons.inj second).1.symm
          exact absurd (by rw [first, colon]; simp) plainB
    · cases extra with
      | nil => simp_all
      | cons c extra =>
          have colon : c = ':' := (List.cons.inj second).1.symm
          exact absurd (by rw [first, colon]; simp) plainA
  exact ⟨String.toList_inj.mp cut.1, cut.2.2⟩

theorem join_cons_to_list (separator piece : String) {pieces : List String} (more : pieces ≠ []) :
    (join separator (piece :: pieces)).toList
      = piece.toList ++ (separator.toList ++ (join separator pieces).toList) := by
  rw [join, String.intercalate_cons_of_ne_nil more]
  simp [join]

/-- Pieces without colons can be read back from the path that joins them. -/
theorem join_colons_inj {as bs : List String} (someA : as ≠ []) (someB : bs ≠ [])
    (plainA : ∀ a ∈ as, Colonless a) (plainB : ∀ b ∈ bs, Colonless b)
    (same : join "::" as = join "::" bs) : as = bs := by
  induction as generalizing bs with
  | nil => exact absurd rfl someA
  | cons a as ih =>
      cases bs with
      | nil => exact absurd rfl someB
      | cons b bs =>
          have plainFirstA : Colonless a := plainA a (by simp)
          have plainFirstB : Colonless b := plainB b (by simp)
          have texts := congrArg String.toList same
          cases as with
          | nil =>
              cases bs with
              | nil => simpa [join] using same
              | cons next more =>
                  rw [join_cons_to_list _ _ (List.cons_ne_nil next more)] at texts
                  have longer : a.toList = b.toList ++ ':' :: ':' :: (join "::" (next :: more)).toList := by
                    simpa [join] using texts
                  exact absurd (by rw [longer]; simp) plainFirstA
          | cons second others =>
              rw [join_cons_to_list _ _ (List.cons_ne_nil second others)] at texts
              cases bs with
              | nil =>
                  have longer : b.toList = a.toList ++ ':' :: ':' :: (join "::" (second :: others)).toList := by
                    simpa [join] using texts.symm
                  exact absurd (by rw [longer]; simp) plainFirstB
              | cons next more =>
                  rw [join_cons_to_list _ _ (List.cons_ne_nil next more)] at texts
                  obtain ⟨first, rest⟩ := colonless_append_inj plainFirstA plainFirstB texts
                  have tails : join "::" (second :: others) = join "::" (next :: more) :=
                    String.toList_inj.mp (List.cons.inj rest).2
                  have equal := ih (List.cons_ne_nil second others) (List.cons_ne_nil next more)
                    (fun piece member => plainA piece (List.mem_cons_of_mem a member))
                    (fun piece member => plainB piece (List.mem_cons_of_mem b member)) tails
                  rw [first, equal]

end Text

namespace Ident

/-- A name holds no character that is neither the mark of a raw identifier nor one of identifiers. -/
theorem lacks {c : Char} (name : Ident) (mark : c ≠ '#') (other : Text.isIdentContinue c = false) :
    c ∉ name.text.toList := by
  intro member
  rcases name.chars c member with same | continues
  · exact mark same
  · exact absurd continues (by simp [other])

theorem colonless (name : Ident) : Text.Colonless name.text := name.lacks (by decide) (by decide)

/-- A name holds characters of identifiers, and perhaps the mark of a raw one. -/
theorem unraw_chars (name : Ident) : ∀ c ∈ (unraw name.text).toList, c = '#' ∨ Text.isIdentContinue c = true := by
  intro c member
  unfold unraw at member
  split at member
  · next rest cut =>
      rw [String.toList_ofList] at member
      have shape := Text.append_of_cutStart? cut
      exact name.chars c (by rw [shape]; exact List.mem_append_right _ member)
  · exact name.chars c member

theorem unraw_colonless (name : Ident) : Text.Colonless (unraw name.text) := by
  intro member
  rcases name.unraw_chars ':' member with mark | continues
  · exact absurd mark (by decide)
  · exact absurd continues (by decide)

end Ident

namespace Module

variable {t : File.Tree} {layout : CrateLayout} {m : Module}

/-- The module is one the loader gives: it was reached from the entry file of the crate. -/
def Loaded (t : File.Tree) (layout : CrateLayout) (m : Module) : Prop :=
  ∃ rest, loadSegments t layout ("crate" :: rest) = .ok m

theorem load_segments_ok {segments : List String} :
    loadSegments t layout segments = .ok m
      ↔ ∃ entry walk, Walk.start t layout.entry = .ok entry
          ∧ (segments.drop 1).foldlM (Walk.descend t) entry = .ok walk
          ∧ m = ⟨segments, walk.file, walk.items⟩ := by
  simp only [loadSegments, Outcome.map_error_ok, Outcome.bind_ok, Outcome.pure_ok, eq_comm (a := m)]
  constructor
  · rintro ⟨entry, opened, walk, walked, shape⟩
    exact ⟨entry, walk, opened, walked, shape⟩
  · rintro ⟨entry, walk, opened, walked, shape⟩
    exact ⟨entry, opened, walk, walked, shape⟩

theorem segments_of_load_segments {segments : List String} (loaded : loadSegments t layout segments = .ok m) :
    m.segments = segments := by
  obtain ⟨entry, walk, _, _, shape⟩ := load_segments_ok.mp loaded
  rw [shape]

/-- A module path means a module below the entry file. -/
theorem normalize_ok {path : String} {segments : List String} (normal : normalize layout path = .ok segments) :
    ∃ rest, segments = "crate" :: rest := by
  unfold normalize at normal
  split at normal
  · exact absurd normal (by simp)
  · exact absurd normal (by simp)
  · split at normal
    · exact ⟨[], (Except.ok.inj normal).symm⟩
    · next first rest _ =>
        split at normal
        · exact ⟨rest, (Except.ok.inj normal).symm⟩
        · split at normal
          · exact absurd normal (by simp)
          · exact ⟨first :: rest, (Except.ok.inj normal).symm⟩

theorem loaded_of_load {path : String} (loaded : load t layout path = .ok m) : m.Loaded t layout := by
  unfold load at loaded
  obtain ⟨segments, normal, found⟩ := Outcome.bind_ok.mp loaded
  obtain ⟨rest, shape⟩ := normalize_ok (Outcome.map_error_ok.mp normal)
  rw [shape] at found
  exact ⟨rest, found⟩

/-- A walk descends only into what the items declare, so into the name of a module. -/
theorem name_of_descend {before after : Walk} {segment : String} (step : before.descend t segment = .ok after) :
    ∃ name : Ident, unraw name.text = segment := by
  unfold Walk.descend at step
  cases declared : before.items.findSome? (moduleDeclared segment) with
  | none =>
      rw [declared] at step
      exact absurd step (by simp)
  | some written =>
      obtain ⟨item, _, tells⟩ := List.exists_of_findSome?_eq_some declared
      unfold moduleDeclared at tells
      split at tells
      · next name file body _ =>
          split at tells
          · next named => exact ⟨name, named⟩
          · exact absurd tells (by simp)
      · exact absurd tells (by simp)

theorem colonless_of_descend {before after : Walk} {segment : String}
    (step : before.descend t segment = .ok after) : Text.Colonless segment := by
  obtain ⟨name, named⟩ := name_of_descend step
  rw [← named]
  exact name.unraw_colonless

/-- The segments of a module that was loaded hold no colons, and loading them again gives the module. -/
theorem Loaded.again (loaded : m.Loaded t layout) :
    (∀ segment ∈ m.segments, Text.Colonless segment) ∧ m.segments ≠ []
      ∧ loadSegments t layout m.segments = .ok m := by
  obtain ⟨rest, found⟩ := loaded
  have written := segments_of_load_segments found
  obtain ⟨entry, walk, _, walked, _⟩ := load_segments_ok.mp found
  refine ⟨?_, ?_, ?_⟩
  · rw [written]
    intro segment member
    rcases List.mem_cons.mp member with same | below
    · rw [same]
      unfold Text.Colonless
      decide
    · obtain ⟨before, after, step⟩ := Outcome.fold_ok_round walked segment below
      exact colonless_of_descend step
  · rw [written]
    exact List.cons_ne_nil "crate" rest
  · rw [written]
    exact found

/-- The path of a module that was loaded names it. -/
theorem Loaded.unique_of_path {a b : Module} (loadedA : a.Loaded t layout) (loadedB : b.Loaded t layout)
    (same : a.path = b.path) : a = b := by
  obtain ⟨plainA, someA, againA⟩ := loadedA.again
  obtain ⟨plainB, someB, againB⟩ := loadedB.again
  have segments := Text.join_colons_inj someA someB plainA plainB same
  rw [segments] at againA
  exact Except.ok.inj (againA.symm.trans againB)

/-- A target leads from a module that was loaded to one that was loaded. -/
theorem Leads.loaded {target : Ty} {reached : Module} {name : String}
    (leads : m.Leads t layout target reached name) (loaded : m.Loaded t layout) : reached.Loaded t layout := by
  unfold Leads at leads
  split at leads
  · rw [leads.1]
    exact loaded
  · next segments own points =>
      obtain ⟨rest, shape⟩ := AliasTarget.classify_in_module points
      rw [shape] at leads
      exact ⟨rest, leads.1⟩
  · exact absurd leads id

/-- A target leads to one place only. -/
theorem Leads.unique {target : Ty} {a b : Module} {nameA nameB : String} (toA : m.Leads t layout target a nameA)
    (toB : m.Leads t layout target b nameB) : a = b ∧ nameA = nameB := by
  unfold Leads at toA toB
  split at toA
  · next own points =>
      rw [points] at toB
      exact ⟨toA.1.trans toB.1.symm, toA.2.trans toB.2.symm⟩
  · next segments own points =>
      rw [points] at toB
      exact ⟨Except.ok.inj (toA.1.symm.trans toB.1), toA.2.trans toB.2.symm⟩
  · exact absurd toA id

/-- A name that lookup finds is written in the characters of identifiers. -/
theorem Finds.chars {name : String} {item : Item} (found : m.Finds name item) :
    ∀ c ∈ name.toList, c = '#' ∨ Text.isIdentContinue c = true := by
  obtain ⟨symbol, lookup, _⟩ := found
  obtain ⟨member, named⟩ := Symbol.find_some lookup
  obtain ⟨ident, _, written⟩ := Symbol.mem_of_items member
  have plain : ∀ c ∈ (unraw name).toList, c = '#' ∨ Text.isIdentContinue c = true := by
    rw [← named, written]
    exact ident.unraw_chars
  intro c listed
  unfold unraw at plain
  split at plain
  · next rest cut =>
      rw [Text.append_of_cutStart? cut] at listed
      rw [String.toList_ofList] at plain
      rcases List.mem_append.mp listed with mark | later
      · rcases List.mem_cons.mp mark with first | second
        · rw [first]
          exact Or.inr (by decide)
        · exact Or.inl (List.mem_singleton.mp second)
      · exact plain c later
  · exact plain c listed

theorem Finds.colonless {name : String} {item : Item} (found : m.Finds name item) : Text.Colonless name := by
  intro member
  rcases found.chars ':' member with mark | continues
  · exact absurd mark (by decide)
  · exact absurd continues (by decide)

/-- The key of a visited declaration stands for one module and one name, since no name holds a colon. -/
theorem visit_key_inj_of_colonless {a b : Module} {nameA nameB : String} (loadedA : a.Loaded t layout)
    (loadedB : b.Loaded t layout) (plainNameA : Text.Colonless nameA) (plainNameB : Text.Colonless nameB)
    (same : visitKey a nameA = visitKey b nameB) : a = b ∧ nameA = nameB := by
  obtain ⟨plainA, someA, againA⟩ := loadedA.again
  obtain ⟨plainB, someB, againB⟩ := loadedB.again
  have joined (m : Module) (name : String) (some : m.segments ≠ []) :
      visitKey m name = Text.join "::" (m.segments ++ [name]) := by
    rw [Text.join, String.intercalate_append_of_ne_nil some (by simp)]
    simp [visitKey, path, Text.join]
  rw [joined a nameA someA, joined b nameB someB] at same
  have plainEnd {segments : List String} {name : String} (plain : ∀ s ∈ segments, Text.Colonless s)
      (last : Text.Colonless name) : ∀ s ∈ segments ++ [name], Text.Colonless s := by
    intro s member
    rcases List.mem_append.mp member with inside | single
    · exact plain s inside
    · rw [List.mem_singleton.mp single]
      exact last
  have pieces := Text.join_colons_inj (by simp) (by simp) (plainEnd plainA plainNameA)
    (plainEnd plainB plainNameB) same
  have parts := List.append_inj' pieces rfl
  have modules : a = b := by
    rw [parts.1] at againA
    exact Except.ok.inj (againA.symm.trans againB)
  exact ⟨modules, (List.cons.inj parts.2).1⟩

theorem visit_key_inj {a b : Module} {nameA nameB : String} {itemA itemB : Item} (loadedA : a.Loaded t layout)
    (loadedB : b.Loaded t layout) (foundA : a.Finds nameA itemA) (foundB : b.Finds nameB itemB)
    (same : visitKey a nameA = visitKey b nameB) : a = b ∧ nameA = nameB :=
  visit_key_inj_of_colonless loadedA loadedB foundA.colonless foundB.colonless same

end Module

end Accessors
