import Accessors.Proofs.BuiltInTemplates
import Accessors.Proofs.Directories
import Accessors.Proofs.SearchPatterns
import Accessors.Proofs.TemplateSearch
import Mathlib.Data.List.Forall2
import Mathlib.Data.List.TakeWhile

/-!
What a template directory is loaded from. It should be all template files below it, and it is if its name is plain
to the search. From a star on the name is a pattern: then what is found stands elsewhere, or it has other names there,
so a directory of such a name is never loaded whole, although it has all the templates that are needed.
-/

namespace Accessors

open File (Place Content)
open Template (Loaded TemplateSet)

/-! Sets of templates. -/

namespace Outcome

variable {ε α β γ : Type}

/-- All inputs go well, each in two steps. -/
theorem map_map_ok {first : α → Except ε β} {second : β → Except ε γ} {inputs : List α} {outputs : List γ} :
    (∃ middle, inputs.mapM first = .ok middle ∧ middle.mapM second = .ok outputs)
      ↔ List.Forall₂ (fun input output => ∃ value, first input = .ok value ∧ second value = .ok output)
          inputs outputs := by
  induction inputs generalizing outputs with
  | nil =>
      rw [List.forall₂_nil_left_iff]
      constructor
      · rintro ⟨middle, none, done⟩
        rw [List.mapM_nil, pure_ok] at none
        rw [← none, List.mapM_nil, pure_ok] at done
        exact done.symm
      · intro none
        rw [none]
        exact ⟨[], rfl, rfl⟩
  | cons input inputs ih =>
      rw [List.forall₂_cons_left_iff]
      constructor
      · rintro ⟨middle, read, made⟩
        rw [List.mapM_cons] at read
        obtain ⟨value, here, read⟩ := bind_ok.mp read
        obtain ⟨values, later, whole⟩ := bind_ok.mp read
        rw [← pure_ok.mp whole, List.mapM_cons] at made
        obtain ⟨output, one, made⟩ := bind_ok.mp made
        obtain ⟨others, more, whole⟩ := bind_ok.mp made
        exact ⟨output, others, ⟨value, here, one⟩, ih.mp ⟨values, later, more⟩, (pure_ok.mp whole).symm⟩
      · rintro ⟨output, others, ⟨value, here, one⟩, rest, rfl⟩
        obtain ⟨values, later, more⟩ := ih.mpr rest
        apply Exists.intro (value :: values)
        rw [List.mapM_cons, List.mapM_cons, here, later, one]
        apply And.intro rfl
        rw [bind_ok]
        apply Exists.intro output
        apply And.intro rfl
        rw [more]
        rfl

end Outcome

/-- The templates of a set are those of some files, each under the names that lead to its file, and their parents
and libraries are in the set. -/
structure MadeOf (set : TemplateSet) (files : List (Place × Content)) : Prop where
  templates : List.Forall₂ (fun file template => ∃ source, file.2 = .text source
    ∧ Loaded.ofSource (String.ofList (Text.joinWith ['/'] file.1)) source = .ok template) files set.templates
  sound : ∀ template ∈ set.templates, set.fault? template = none

theorem of_sources_ok {files : List (Place × Content)} {set : TemplateSet} :
    (files.mapM readTemplate >>= TemplateSet.ofSources) = .ok set ↔ MadeOf set files := by
  have one (file : Place × Content) (template : Loaded) :
      (∃ source, readTemplate file = .ok source ∧ Loaded.ofSource source.1 source.2 = .ok template)
        ↔ ∃ source, file.2 = .text source
          ∧ Loaded.ofSource (String.ofList (Text.joinWith ['/'] file.1)) source = .ok template := by
    obtain ⟨names, content⟩ := file
    cases content <;> simp [readTemplate]
  have sound (set : TemplateSet) :
      set.templates.findSome? set.fault? = none ↔ ∀ template ∈ set.templates, set.fault? template = none :=
    List.findSome?_eq_none_iff
  have made (sources : List (String × String)) : TemplateSet.ofSources sources = .ok set
      ↔ sources.mapM (fun file => Loaded.ofSource file.1 file.2) = .ok set.templates
        ∧ set.templates.findSome? set.fault? = none := by
    unfold TemplateSet.ofSources
    rw [Outcome.bind_ok]
    constructor
    · rintro ⟨templates, read, rest⟩
      simp only at rest
      split at rest
      · cases rest
      · next none =>
          rw [← Except.ok.inj rest]
          exact ⟨read, none⟩
    · rintro ⟨read, none⟩
      apply Exists.intro set.templates
      apply And.intro read
      simp only [none]
  rw [Outcome.bind_ok]
  constructor
  · rintro ⟨sources, read, loaded⟩
    have both := Outcome.map_map_ok.mp ⟨sources, read, ((made sources).mp loaded).1⟩
    exact ⟨both.imp fun file template => (one file template).mp, (sound set).mp ((made sources).mp loaded).2⟩
  · intro whole
    have both := whole.templates.imp fun file template => (one file template).mpr
    obtain ⟨sources, read, parsed⟩ := Outcome.map_map_ok.mpr both
    exact ⟨sources, read, (made sources).mpr ⟨parsed, (sound set).mpr whole.sound⟩⟩

theorem of_source_name {name source : String} {template : Loaded} (made : Loaded.ofSource name source = .ok template) :
    template.name = name := by
  unfold Loaded.ofSource at made
  split at made
  · cases made
  · simp only at made
    split at made
    · cases made
    · cases made
    · rw [← Except.ok.inj made]

/-- Names are joined to a text without a slash if there is only one. -/
theorem join_slashless {names : Place} {word : List Char} (some : word ≠ []) (plain : '/' ∉ word) :
    Text.joinWith ['/'] names = word ↔ names = [word] := by
  match names with
  | [] => simp [Text.joinWith, some.symm]
  | [name] => simp [Text.joinWith]
  | first :: second :: more =>
      have longer : first :: second :: more ≠ [word] := by simp
      have slash : Text.joinWith ['/'] (first :: second :: more) ≠ word := by
        intro same
        rw [← same] at plain
        exact plain (by simp [Text.joinWith])
      exact iff_of_false slash longer

theorem names_made {set : TemplateSet} {files : List (Place × Content)} (made : MadeOf set files) :
    set.templates.map (·.name) = files.map fun file => String.ofList (Text.joinWith ['/'] file.1) := by
  have whole := made.templates
  generalize set.templates = templates at whole ⊢
  clear made
  induction whole with
  | nil => rfl
  | cons here _ ih =>
      obtain ⟨source, _, loaded⟩ := here
      rw [List.map_cons, List.map_cons, of_source_name loaded, ih]

/-- A template that is needed is in a set if its file is one of the files. -/
theorem find_made {set : TemplateSet} {files : List (Place × Content)} (made : MadeOf set files)
    (name : TemplateName) :
    (set.find? name.fileName).isSome = true ↔ ∃ content, ([name.fileName.toList], content) ∈ files := by
  have plain : name.fileName.toList ≠ [] ∧ '/' ∉ name.fileName.toList := by cases name <;> decide
  have called (names : Place) :
      String.ofList (Text.joinWith ['/'] names) = name.fileName ↔ names = [name.fileName.toList] := by
    rw [← join_slashless plain.1 plain.2, ← String.toList_inj, String.toList_ofList]
  calc (set.find? name.fileName).isSome = true
      ↔ name.fileName ∈ set.templates.map (·.name) := by
        unfold TemplateSet.find?
        rw [List.find?_isSome, List.mem_map]
        simp
    _ ↔ ∃ file ∈ files, file.1 = [name.fileName.toList] := by
        rw [names_made made, List.mem_map]
        simp only [called]
    _ ↔ ∃ content, ([name.fileName.toList], content) ∈ files := by
        simp

/-! The templates of a directory. -/

section

variable {t : File.Tree} {dir : File.Path} {start place : Place} {steps : List (List Char)} {r : Registry}

theorem of_set_ok {source : TemplateSource} {set : TemplateSet} :
    Registry.ofSet source set = .ok r ↔ r.source = source ∧ r.templates = set := by
  unfold Registry.ofSet
  constructor
  · intro made
    split at made
    · rw [← Except.ok.inj made]
      exact ⟨rfl, rfl⟩
    · cases made
  · rintro ⟨rfl, rfl⟩
    have none : Registry.missing r.templates = [] := by
      apply List.filter_eq_nil_iff.mpr
      intro name _
      rw [Option.isNone_eq_false_iff.mpr (r.complete name)]
      exact Bool.false_ne_true
    rw [dif_pos none]

/-- A registry holds what is found in the search. -/
theorem load_ok_iff (there : t.isDirectory dir = true) (search : templateSearch? t dir = some (start, steps)) :
    Registry.load t (.directory dir) = .ok r
      ↔ r.source = .directory dir ∧ MadeOf r.templates (File.Glob.filesMatching t start steps) := by
  have sources : Registry.sources t (.directory dir)
      = ((File.Glob.filesMatching t start steps).mapM readTemplate).mapError (.load (.directory dir)) := by
    unfold Registry.sources templateSources
    simp only [there, search, if_true]
  unfold Registry.load
  rw [sources, ← of_sources_ok]
  simp only [Outcome.bind_ok, Outcome.map_error_ok, of_set_ok]
  constructor
  · rintro ⟨sources, read, set, parsed, source, rfl⟩
    exact ⟨source, sources, read, parsed⟩
  · rintro ⟨source, sources, read, parsed⟩
    exact ⟨sources, read, r.templates, parsed, source, rfl⟩

end

/-! The template files below a place, and the search for those of a directory. -/

def isTemplateFile (names : Place) : Bool :=
  names.getLast?.any fun name => ".tera".toList.isSuffixOf name

namespace File.Tree

variable {t : Tree} {place names : Place} {content : Content}

theorem mem_files_below : (names, content) ∈ t.filesBelow place ↔ (place ++ names, content) ∈ t.files := by
  unfold filesBelow
  rw [List.mem_filterMap]
  constructor
  · rintro ⟨⟨whole, found⟩, member, same⟩
    simp only at same
    split at same
    · next below =>
        obtain ⟨more, rfl⟩ := List.isPrefixOf_iff_prefix.mp below
        rw [List.drop_left] at same
        obtain ⟨rfl, rfl⟩ := Prod.mk.inj (Option.some.inj same)
        exact member
    · cases same
  · intro member
    apply Exists.intro (place ++ names, content)
    apply And.intro member
    have below : place.isPrefixOf (place ++ names) = true := List.isPrefixOf_iff_prefix.mpr (List.prefix_append _ _)
    simp only [below, if_true, List.drop_left]

theorem solid_of_located {p : Path} (located : t.locate p = .ok place) : p.isEmpty = false :=
  (path_fault_none.mp (locate_iff.mp located).1).2.1

/-- The template files below a place, with the names that lead to them from there. -/
def templatesBelow (t : Tree) (place : Place) : List (Place × Content) :=
  (t.filesBelow place).filter fun file => isTemplateFile file.1

end File.Tree

section

variable {t : File.Tree} {dir : File.Path} {start place : Place} {before steps : List (List Char)} {r : Registry}

theorem file_pattern_fits {name : List Char} :
    File.Glob.fitsName templateFilePattern name = true ↔ ".tera".toList <:+ name := by
  apply File.Glob.fits_ending
  decide

/-- A pattern of any directories finds all template files. -/
theorem matching_anywhere (any : ∀ step ∈ before, step = ['*', '*']) (place : Place) :
    File.Glob.filesMatching t place (before ++ [['*', '*'], templateFilePattern]) = t.templatesBelow place := by
  unfold File.Glob.filesMatching File.Tree.templatesBelow
  congr
  funext file
  apply Bool.eq_iff_iff.mpr
  unfold isTemplateFile
  rw [File.Glob.fits_last (by decide) any, Option.any_eq_true]
  simp only [file_pattern_fits, List.isSuffixOf_iff_suffix]

/-- A directory whose name means itself in a search: no star in its path, no brace in the names of its place. -/
structure PlainDirectory (t : File.Tree) (dir : File.Path) : Prop where
  starless : '*' ∉ dir.text.toList
  braceless : ∀ name ∈ t.target dir, '\x7b' ∉ name ∧ '\x7d' ∉ name

theorem unbraced_iff : place.any (fun name => name.contains '\x7b' || name.contains '\x7d') = false
    ↔ ∀ name ∈ place, '\x7b' ∉ name ∧ '\x7d' ∉ name := by
  rw [List.any_eq_false]
  simp

theorem no_star {text : List Char} (starless : '*' ∉ text) : ∀ c ∈ text, (c != '*') = true := by
  intro c member
  apply bne_iff_ne.mpr
  intro same
  rw [same] at member
  exact starless member

/-- A name without a star is searched at its own place. -/
theorem search_of_starless (there : t.isDirectory dir = true) (starless : '*' ∉ dir.text.toList) :
    templateSearch? t dir
      = if (t.target dir).any (fun name => name.contains '\x7b' || name.contains '\x7d') then none
        else some (t.target dir, [['*', '*'], templateFilePattern]) := by
  obtain ⟨place, located, _⟩ := File.Tree.is_directory_iff.mp there
  have solid : dir.text.toList ≠ [] := by
    intro empty
    have none : dir.isEmpty = true := String.isEmpty_iff.mpr (String.toList_inj.mp empty)
    rw [File.Tree.solid_of_located located] at none
    cases none
  have whole : dir.text.toList.takeWhile (· != '*') = dir.text.toList :=
    List.takeWhile_eq_self_iff.mpr (no_star starless)
  unfold templateSearch?
  simp only [whole, solid, if_false, String.ofList_toList, located, File.Tree.locate_ok located, List.drop_length]
  simp [Text.splitAt, File.Split.isFiller, solid]

/-- Behind a star the search goes on from the place in front of it, with a pattern of what is left of the name. -/
theorem search_of_star {front after : List Char} (cut : dir.text.toList = front ++ '*' :: after) (first : '*' ∉ front)
    (search : templateSearch? t dir = some (start, steps)) :
    start = (Text.splitAt '/' front).foldl Place.onward (t.base dir)
      ∧ ∃ pattern, steps = pattern ++ [['*', '*'], templateFilePattern]
        ∧ ∀ piece ∈ Text.splitAt '/' ('*' :: after), File.Split.isFiller piece = true ∨ piece ∈ pattern := by
  have whole : dir.text.toList.takeWhile (· != '*') = front := by
    rw [cut, List.takeWhile_append_of_pos (no_star first)]
    simp
  unfold templateSearch? at search
  simp only [whole] at search
  rw [cut, List.drop_left] at search
  cases front with
  | nil =>
      have relative : dir.isAbsolute = false := File.Path.relative_of_head cut (by decide)
      have base : t.base dir = t.cwd := by
        unfold File.Tree.base
        rw [relative]
        rfl
      obtain ⟨rfl, rfl⟩ := Prod.mk.inj (Option.some.inj search)
      apply And.intro base.symm
      exact ⟨_, rfl, fun piece member => Or.inr member⟩
  | cons c front =>
      simp only [List.cons_ne_nil, if_false] at search
      split at search
      · cases search
      · next place located =>
          split at search
          · cases search
          · obtain ⟨rfl, rfl⟩ := Prod.mk.inj (Option.some.inj search)
            have base : t.base dir = t.base ⟨String.ofList (c :: front)⟩ :=
              File.Tree.base_of_front (by rw [cut, String.toList_ofList]) (File.Tree.solid_of_located located)
            have named := File.Tree.locate_ok located
            unfold File.Tree.target at named
            rw [String.toList_ofList, ← base] at named
            apply And.intro named
            refine ⟨_, rfl, fun piece member => ?_⟩
            cases filler : File.Split.isFiller piece with
            | true => exact Or.inl rfl
            | false => exact Or.inr (List.mem_filter.mpr ⟨member, by rw [filler]; rfl⟩)

/-! Where the pieces of a name lead. -/

theorem onward_below {pieces : List (List Char)} (down : ['.', '.'] ∉ pieces) (place : Place) :
    ∃ names, pieces.foldl Place.onward place = place ++ names := by
  induction pieces generalizing place with
  | nil => exact ⟨[], (List.append_nil place).symm⟩
  | cons piece pieces ih =>
      have later : ['.', '.'] ∉ pieces := fun member => down (List.mem_cons_of_mem piece member)
      have here : piece ≠ ['.', '.'] := by
        intro same
        rw [same] at down
        exact down List.mem_cons_self
      obtain ⟨names, whole⟩ := ih later (place.onward piece)
      rw [List.foldl_cons, whole]
      by_cases stays : piece = [] ∨ piece = ['.']
      · have same : place.onward piece = place := if_pos stays
        rw [same]
        exact ⟨names, rfl⟩
      · have part : ¬ (piece = [] ∨ piece = ['.'] ∨ piece = ['.', '.']) := by
          rintro (empty | dot | up)
          · exact stays (Or.inl empty)
          · exact stays (Or.inr dot)
          · exact here up
        rw [place.onward_of_part part, List.append_assoc]
        exact ⟨piece :: names, rfl⟩

/-- A piece does not lead where a longer one leads, nor below. -/
theorem onward_apart (place names : Place) (piece more : List Char) :
    place.onward piece ≠ place ++ (piece ++ '*' :: more) :: names := by
  intro same
  have lengths := congrArg List.length same
  rw [List.length_append, List.length_cons] at lengths
  unfold Place.onward at same lengths
  split at same
  · next stays =>
      rw [if_pos stays] at lengths
      omega
  · next moves =>
      rw [if_neg moves] at lengths
      split at same
      · next up =>
          rw [if_pos up] at lengths
          unfold Place.up at lengths
          rw [List.length_dropLast] at lengths
          omega
      · have names := List.append_cancel_left same
        have text := congrArg List.length (List.cons.inj names).1
        rw [List.length_append, List.length_cons] at text
        omega

theorem split_star (after : List Char) : ∃ next rest, Text.splitAt '/' ('*' :: after) = ('*' :: next) :: rest := by
  rw [Text.splitAt, if_neg (by decide)]
  cases Text.splitAt '/' after with
  | nil => exact ⟨[], [], rfl⟩
  | cons next rest => exact ⟨next, rest, rfl⟩

/-- A piece with a star in it is a name, and not one of the dots. -/
theorem part_of_star (front back : List Char) :
    ¬ (front ++ '*' :: back = [] ∨ front ++ '*' :: back = ['.'] ∨ front ++ '*' :: back = ['.', '.']) := by
  have star : '*' ∈ front ++ '*' :: back := List.mem_append_right front List.mem_cons_self
  rintro (same | same | same) <;> (rw [same] at star; exact absurd star (by decide))

/-- A star leads the search to another place than the directory's, unless what follows it climbs up again. -/
theorem search_elsewhere (star : '*' ∈ dir.text.toList) (search : templateSearch? t dir = some (start, steps)) :
    ∃ before, steps = before ++ [['*', '*'], templateFilePattern]
      ∧ (['.', '.'] ∉ before → start ≠ t.target dir) := by
  obtain ⟨front, after, cut, first⟩ := List.eq_append_cons_of_mem star
  obtain ⟨from_front, before, shape, pieces⟩ := search_of_star cut first search
  apply Exists.intro before
  apply And.intro shape
  intro down
  -- the last piece of the front goes on behind the star, so it leads elsewhere
  obtain ⟨firsts, last, ends⟩ : ∃ firsts last, Text.splitAt '/' front = firsts ++ [last] :=
    ⟨_, _, (List.dropLast_concat_getLast (Text.splitAt_ne_nil '/' front)).symm⟩
  obtain ⟨next, rest, goes⟩ := split_star after
  have stays : ['.', '.'] ∉ rest := by
    intro member
    rw [goes] at pieces
    rcases pieces _ (List.mem_cons_of_mem _ member) with filler | listed
    · exact absurd filler (by decide)
    · exact down listed
  unfold File.Tree.target
  rw [from_front, ends, cut, Text.splitAt_meeting ends goes, List.foldl_append, List.foldl_append, List.foldl_cons,
    List.foldl_cons, List.foldl_nil, Place.onward_of_part _ (part_of_star last next)]
  obtain ⟨names, whole⟩ := onward_below stays (firsts.foldl Place.onward (t.base dir) ++ [last ++ '*' :: next])
  rw [whole, List.append_assoc]
  exact onward_apart _ names last next

/-! The whole directory. -/

/-- A file that is found for a directory, under the names it is loaded by. -/
def FoundAs (t : File.Tree) (dir : File.Path) (file names : Place) (content : Content) : Prop :=
  ∃ start steps, templateSearch? t dir = some (start, steps)
    ∧ (names, content) ∈ File.Glob.filesMatching t start steps ∧ file = start ++ names

/-- A template file below a directory, with the names that lead to it from there. -/
def StandsAs (t : File.Tree) (dir : File.Path) (file names : Place) (content : Content) : Prop :=
  (names, content) ∈ t.templatesBelow (t.target dir) ∧ file = t.target dir ++ names

/-- Exactly the template files below a directory are found for it. -/
def FoundWhole (t : File.Tree) (dir : File.Path) : Prop :=
  ∀ file names content, FoundAs t dir file names content ↔ StandsAs t dir file names content

theorem search_of_plain (there : t.isDirectory dir = true) (plain : PlainDirectory t dir) :
    templateSearch? t dir = some (t.target dir, [['*', '*'], templateFilePattern]) := by
  rw [search_of_starless there plain.starless, unbraced_iff.mpr plain.braceless]
  rfl

theorem matching_of_plain (place : Place) :
    File.Glob.filesMatching t place [['*', '*'], templateFilePattern] = t.templatesBelow place := by
  have none : ∀ step ∈ ([] : List (List Char)), step = ['*', '*'] := by
    intro step member
    cases member
  exact matching_anywhere none place

theorem found_of_plain (there : t.isDirectory dir = true) (plain : PlainDirectory t dir) : FoundWhole t dir := by
  intro file names content
  unfold FoundAs StandsAs
  rw [search_of_plain there plain]
  constructor
  · rintro ⟨start, steps, search, member, shape⟩
    obtain ⟨rfl, rfl⟩ := Prod.mk.inj (Option.some.inj search)
    rw [matching_of_plain] at member
    exact ⟨member, shape⟩
  · rintro ⟨member, shape⟩
    rw [← matching_of_plain] at member
    exact ⟨_, _, rfl, member, shape⟩

theorem star_of_found (there : t.isDirectory dir = true) (other : ¬ PlainDirectory t dir)
    (search : templateSearch? t dir = some (start, steps)) : '*' ∈ dir.text.toList := by
  by_contra starless
  rw [search_of_starless there starless] at search
  split at search
  · cases search
  · next unbraced => exact other ⟨starless, unbraced_iff.mp (Bool.eq_false_iff.mpr unbraced)⟩

theorem files_of_match {file : Place × Content} (member : file ∈ File.Glob.filesMatching t start steps) :
    (start ++ file.1, file.2) ∈ t.files ∧ File.Glob.fits steps file.1 = true := by
  obtain ⟨below, fit⟩ := List.mem_filter.mp member
  exact ⟨File.Tree.mem_files_below.mp below, fit⟩

/-- Two dots in a pattern fit no name. -/
theorem no_dots_of_match (named : ∀ file ∈ t.files, ['.', '.'] ∉ file.1) {file : Place × Content}
    (member : file ∈ File.Glob.filesMatching t start steps) : ['.', '.'] ∉ steps := by
  intro listed
  obtain ⟨here, fit⟩ := files_of_match member
  obtain ⟨name, among, same⟩ := File.Glob.fit_of_step (by decide) listed fit
  rw [(File.Glob.fits_own_text (by decide)).mp same] at among
  exact named _ here (List.mem_append_right start among)

/-- What is found for a directory of another name stands elsewhere or has other names. -/
theorem found_apart (there : t.isDirectory dir = true) (named : ∀ file ∈ t.files, ['.', '.'] ∉ file.1)
    (other : ¬ PlainDirectory t dir) {file names : Place} {content : Content}
    (found : FoundAs t dir file names content) : ¬ StandsAs t dir file names content := by
  rintro ⟨_, stands⟩
  obtain ⟨start, steps, search, member, shape⟩ := found
  obtain ⟨before, whole, apart⟩ := search_elsewhere (star_of_found there other search) search
  have down := no_dots_of_match named member
  rw [whole] at down
  rw [shape] at stands
  exact apart (fun listed => down (List.mem_append_left _ listed)) (List.append_cancel_right stands)

theorem found_whole_iff (there : t.isDirectory dir = true) (named : ∀ file ∈ t.files, ['.', '.'] ∉ file.1) :
    FoundWhole t dir ↔ PlainDirectory t dir ∨ ∀ file names content,
      ¬ FoundAs t dir file names content ∧ ¬ StandsAs t dir file names content := by
  constructor
  · intro whole
    by_cases plain : PlainDirectory t dir
    · exact Or.inl plain
    · right
      intro file names content
      constructor
      · intro found
        exact found_apart there named plain found ((whole file names content).mp found)
      · intro stands
        exact found_apart there named plain ((whole file names content).mpr stands) stands
  · rintro (plain | nothing)
    · exact found_of_plain there plain
    · intro file names content
      exact iff_of_false (nothing file names content).1 (nothing file names content).2

/-- A directory of a plain name makes a registry if its files make a sound set and those that are needed stand
directly in it. -/
theorem load_of_plain (there : t.isDirectory dir = true) (plain : PlainDirectory t dir) :
    (∃ r, Registry.load t (.directory dir) = .ok r) ↔ (∃ set, MadeOf set (t.templatesBelow (t.target dir)))
      ∧ ∀ name : TemplateName, ∃ content, (t.target dir ++ [name.fileName.toList], content) ∈ t.files := by
  have among (name : TemplateName) (content : Content) : ([name.fileName.toList], content)
      ∈ t.templatesBelow (t.target dir) ↔ (t.target dir ++ [name.fileName.toList], content) ∈ t.files := by
    have ending : isTemplateFile [name.fileName.toList] = true := by cases name <;> decide
    unfold File.Tree.templatesBelow
    rw [List.mem_filter, File.Tree.mem_files_below]
    exact and_iff_left ending
  simp only [load_ok_iff there (search_of_plain there plain), matching_of_plain, ← among]
  constructor
  · rintro ⟨r, _, made⟩
    exact ⟨⟨r.templates, made⟩, fun name => (find_made made name).mp (r.complete name)⟩
  · rintro ⟨⟨set, made⟩, all⟩
    exact ⟨⟨set, .directory dir, fun name => (find_made made name).mpr (all name)⟩, rfl, made⟩

/-- A registry for a directory of another name is one for another place: the header was found, directly in it. -/
theorem load_of_other (there : t.isDirectory dir = true) (other : ¬ PlainDirectory t dir)
    (loaded : Registry.load t (.directory dir) = .ok r) :
    ∃ place, place ≠ t.target dir ∧ MadeOf r.templates (t.templatesBelow place) := by
  obtain ⟨_, start, steps, search⟩ := template_search_of_load loaded
  obtain ⟨before, whole, apart⟩ := search_elsewhere (star_of_found there other search) search
  obtain ⟨_, made⟩ := (load_ok_iff there search).mp loaded
  obtain ⟨content, member⟩ := (find_made made .header).mp (r.complete .header)
  -- one name takes one step, which is the last one, so all before it are for any directories
  have few := File.Glob.steps_le_names (files_of_match member).2
  have any : ∀ step ∈ before, step = ['*', '*'] := by
    have final : [['*', '*'], templateFilePattern].filter (· ≠ ['*', '*']) = [templateFilePattern] := by decide
    rw [whole, List.filter_append, List.length_append, final, List.length_singleton, List.length_singleton] at few
    have none : before.filter (· ≠ ['*', '*']) = [] := List.length_eq_zero_iff.mp (by omega)
    simpa using none
  rw [whole, matching_anywhere any] at made
  have down : ['.', '.'] ∉ before := fun listed => absurd (any _ listed) (by decide)
  exact ⟨start, apart down, made⟩

/-- A directory is found whole if its name means itself, or there is nothing to find. In the first case loading it
makes a registry of its template files, and fails only if one of them is no sound template or one that is needed is
missing; otherwise a registry can only be made of the files of another place. -/
theorem directory_whole_iff (there : t.isDirectory dir = true) (named : ∀ file ∈ t.files, ['.', '.'] ∉ file.1) :
    (FoundWhole t dir ↔ PlainDirectory t dir ∨ ∀ file names content,
      ¬ FoundAs t dir file names content ∧ ¬ StandsAs t dir file names content)
    ∧ (PlainDirectory t dir →
      (∀ r, Registry.load t (.directory dir) = .ok r
        ↔ r.source = .directory dir ∧ MadeOf r.templates (t.templatesBelow (t.target dir)))
      ∧ ((∃ r, Registry.load t (.directory dir) = .ok r)
        ↔ (∃ set, MadeOf set (t.templatesBelow (t.target dir)))
          ∧ ∀ name : TemplateName, ∃ content, (t.target dir ++ [name.fileName.toList], content) ∈ t.files))
    ∧ (¬ PlainDirectory t dir → ∀ r, Registry.load t (.directory dir) = .ok r →
      ∃ place, place ≠ t.target dir ∧ MadeOf r.templates (t.templatesBelow place)) := by
  apply And.intro (found_whole_iff there named)
  constructor
  · intro plain
    constructor
    · intro r
      rw [load_ok_iff there (search_of_plain there plain), matching_of_plain]
    · exact load_of_plain there plain
  · intro other r loaded
    exact load_of_other there other loaded

end

/-- The built-in templates, written out to a directory. -/
def writtenOut (name : String) : File.Tree where
  entries := [([name.toList], .directory),
    ([name.toList, TemplateName.header.fileName.toList], .file (.text Template.BuiltIn.header)),
    ([name.toList, TemplateName.accessors.fileName.toList], .file (.text Template.BuiltIn.accessors))]
  cwd := []

theorem needed_written (name : TemplateName) (directory : String) :
    ∃ content, ([directory.toList, name.fileName.toList], content) ∈ (writtenOut directory).files := by
  cases name with
  | header => exact ⟨_, List.mem_cons_self⟩
  | accessors => exact ⟨_, List.mem_cons_of_mem _ List.mem_cons_self⟩

theorem made_of_written :
    MadeOf Registry.builtIn.templates [([TemplateName.header.fileName.toList], .text Template.BuiltIn.header),
      ([TemplateName.accessors.fileName.toList], .text Template.BuiltIn.accessors)] where
  templates := by
    apply List.Forall₂.cons ⟨_, rfl, Template.of_source_pieces Template.BuiltIn.header_read⟩
    apply List.Forall₂.cons ⟨_, rfl, Template.of_source_pieces Template.BuiltIn.accessors_read⟩
    exact List.Forall₂.nil
  sound := by
    intro template member
    rcases List.mem_pair.mp member with rfl | rfl <;> rfl

/-- Brackets and question marks do no harm. -/
theorem directory_of_sample_whole : FoundWhole (writtenOut "t[1]?") ⟨"t[1]?"⟩
    ∧ ∃ r, Registry.load (writtenOut "t[1]?") (.directory ⟨"t[1]?"⟩) = .ok r := by
  have plain : PlainDirectory (writtenOut "t[1]?") ⟨"t[1]?"⟩ := ⟨by decide, by decide⟩
  have there : (writtenOut "t[1]?").isDirectory ⟨"t[1]?"⟩ = true := by decide
  obtain ⟨whole, loaded, _⟩ := directory_whole_iff there (by decide)
  apply And.intro (whole.mpr (Or.inl plain))
  apply (loaded plain).2.mpr
  constructor
  · exact ⟨_, made_of_written⟩
  · intro name
    exact needed_written name "t[1]?"

/-- A directory with a star in its name has all that is needed, and nothing is found for it. -/
theorem starred_directory_unread :
    (writtenOut "t*x").isDirectory ⟨"t*x"⟩ = true
      ∧ MadeOf Registry.builtIn.templates ((writtenOut "t*x").templatesBelow ["t*x".toList])
      ∧ (writtenOut "t*x").target ⟨"t*x"⟩ = ["t*x".toList]
      ∧ (∀ name : TemplateName, ∃ content,
        (["t*x".toList, name.fileName.toList], content) ∈ (writtenOut "t*x").files)
      ∧ Registry.load (writtenOut "t*x") (.directory ⟨"t*x"⟩)
        = .error (.incomplete (.directory ⟨"t*x"⟩) [.header, .accessors]) := by
  refine ⟨by decide, made_of_written, by decide, ?_, rfl⟩
  intro name
  exact needed_written name "t*x"

end Accessors
