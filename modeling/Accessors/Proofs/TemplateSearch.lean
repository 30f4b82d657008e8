import Accessors.Proofs.OutputEffect
import Accessors.Template.Registry

/-!
Loading templates again. A directory is searched from a place that is there, and what is found is the files that
fit the pattern. An output that does not fit it is not found, so the templates that were loaded before it was put
out are loaded again after it.
-/

namespace Accessors

open File (Place Content)

/-- Loading the templates of a source reads what is found at a place. -/
def TemplateSource.Reads (t : File.Tree) : TemplateSource → Place → Prop
  | .builtIn, _ => False
  | .directory dir, place => ∃ start steps, templateSearch? t dir = some (start, steps)
      ∧ start.isPrefixOf place = true ∧ File.Glob.fits steps (place.drop start.length) = true

variable {t u : File.Tree} {output : File.Path} {dir : File.Path}

/-- A file that fits a pattern, with the names that lead to it from a place. -/
def fitting (start : Place) (steps : List (List Char)) (file : Place × Content) : Option (Place × Content) :=
  if start.isPrefixOf file.1 = true ∧ File.Glob.fits steps (file.1.drop start.length) = true then
    some (file.1.drop start.length, file.2)
  else none

theorem files_matching_eq (t : File.Tree) (start : Place) (steps : List (List Char)) :
    File.Glob.filesMatching t start steps = t.files.filterMap (fitting start steps) := by
  unfold File.Glob.filesMatching File.Tree.filesBelow
  rw [List.filter_filterMap]
  congr
  funext file
  unfold fitting
  by_cases below : start.isPrefixOf file.1 = true
  · by_cases fits : File.Glob.fits steps (file.1.drop start.length) = true <;> simp [below, fits]
  · simp [below]

/-- An output that does not fit a pattern does not change what fits it. -/
theorem files_matching_kept {start : Place} {steps : List (List Char)} (written : t.Written u output)
    (apart : ¬ (start.isPrefixOf (t.target output) = true
      ∧ File.Glob.fits steps ((t.target output).drop start.length) = true)) :
    File.Glob.filesMatching u start steps = File.Glob.filesMatching t start steps := by
  have others (files : List (Place × Content)) :
      files.filterMap (fitting start steps)
        = (files.filter fun file => file.1 ≠ t.target output).filterMap (fitting start steps) := by
    rw [List.filterMap_filter]
    congr
    funext file
    by_cases same : file.1 = t.target output
    · have unfit : fitting start steps file = none := by
        unfold fitting
        rw [same, if_neg apart]
      simp [same, unfit]
    · simp [same]
  rw [files_matching_eq, files_matching_eq, others u.files, others t.files, written.files]

theorem template_search_kept {start : Place} {steps : List (List Char)} (kept : t.Keeps u)
    (found : templateSearch? t dir = some (start, steps)) : templateSearch? u dir = some (start, steps) := by
  unfold templateSearch? at found ⊢
  simp only at found ⊢
  cases plain : dir.text.toList.takeWhile (· != '*') with
  | nil =>
      rw [plain] at found
      simp only [if_true] at found ⊢
      rw [kept.cwd]
      exact found
  | cons c rest =>
      rw [plain] at found
      simp only [reduceCtorEq, if_false] at found ⊢
      cases located : t.locate ⟨String.ofList (c :: rest)⟩ with
      | error fault =>
          rw [located] at found
          exact absurd found (by simp)
      | ok place =>
          rw [located] at found
          rw [kept.locate located]
          exact found

/-- Without a template file there is no registry. -/
theorem template_search_of_load {registry : Registry} (loaded : Registry.load t (.directory dir) = .ok registry) :
    t.isDirectory dir = true ∧ ∃ start steps, templateSearch? t dir = some (start, steps) := by
  unfold Registry.load at loaded
  obtain ⟨sources, found, loaded⟩ := Outcome.bind_ok.mp loaded
  obtain ⟨set, parsed, loaded⟩ := Outcome.bind_ok.mp loaded
  unfold Registry.sources at found
  simp only at found
  split at found
  · next there =>
      refine ⟨there, ?_⟩
      have search := Outcome.map_error_ok.mp found
      unfold templateSources at search
      split at search
      · next start steps shape => exact ⟨start, steps, shape⟩
      · -- without a file no template is there that is needed
        rw [← Except.ok.inj search] at parsed
        have none : (⟨[]⟩ : Template.TemplateSet) = set := Except.ok.inj (Outcome.map_error_ok.mp parsed)
        rw [← none] at loaded
        exact absurd loaded (by simp [Registry.ofSet, Registry.missing, TemplateName.all, Template.TemplateSet.find?])
  · exact absurd found (by simp)

theorem registry_kept {source : TemplateSource} {registry : Registry} (loaded : Registry.load t source = .ok registry)
    (written : t.Written u output) (apart : ¬ source.Reads t (t.target output)) :
    Registry.load u source = .ok registry := by
  cases source with
  | builtIn => exact loaded
  | directory dir =>
      obtain ⟨there, start, steps, search⟩ := template_search_of_load loaded
      have sources : Registry.sources u (.directory dir) = Registry.sources t (.directory dir) := by
        unfold Registry.sources templateSources
        simp only
        rw [there, written.keeps.is_directory there, search, template_search_kept written.keeps search]
        simp only
        rw [files_matching_kept written fun fits => apart ⟨start, steps, search, fits⟩]
      unfold Registry.load at loaded ⊢
      rw [sources]
      exact loaded

end Accessors
