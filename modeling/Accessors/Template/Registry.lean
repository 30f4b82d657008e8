import Accessors.File.Glob
import Accessors.Template.BuiltIn
import Accessors.Template.Render

/-!
The registry of templates. It holds all templates of one source, and there is no registry unless every template
that is needed is among them, so that looking one up cannot fail later.

A directory is loaded whole: every template file below it, under the names that lead to it from there. Its name
is not a plain name to the search, though: from the first star on it is a pattern. A pattern that follows a place has
steps only where the name goes on; one that begins with the name is taken as it is written.
-/

namespace Accessors

open File (Place Content)
open Template (TemplateSet Value RenderFault)

/-- The templates that are needed. -/
inductive TemplateName where
  | header
  | accessors
  deriving DecidableEq, Repr, Inhabited

namespace TemplateName

def all : List TemplateName := [header, accessors]

theorem mem_all (name : TemplateName) : name ∈ all := by
  cases name <;> simp [all]

/-- The name a template is asked for by. -/
def text : TemplateName → String
  | header => "header"
  | accessors => "get_set"

/-- The file a template stands in. -/
def fileName : TemplateName → String
  | header => "header.rs.tera"
  | accessors => "get_set.rs.tera"

/-- A template by its name or its file. -/
def ofText? (text : String) : Option TemplateName :=
  all.find? fun name => name.text == text || name.fileName == text

end TemplateName

/-- Where templates come from. -/
inductive TemplateSource where
  | builtIn
  | directory (dir : File.Path)
  deriving DecidableEq, Repr, Inhabited

def TemplateSource.text : TemplateSource → String
  | .builtIn => "embedded templates"
  | .directory dir => dir.text

/-- Why there is no registry, or why it does not render. -/
inductive TemplateError where
  | load (source : TemplateSource) (fault : Template.LoadFault)
  | missingDirectory (dir : File.Path)
  | incomplete (source : TemplateSource) (missing : List TemplateName)
  | notFound (name : String)
  | render (template : TemplateName) (subject : String) (fault : RenderFault)
  deriving DecidableEq, Repr, Inhabited

namespace TemplateError

def message : TemplateError → String
  | load source _ => "failed to parse templates from " ++ source.text
  | missingDirectory dir => "template directory " ++ dir.text ++ " does not exist"
  | incomplete source missing =>
      "template set from " ++ source.text ++ " is incomplete; missing: "
        ++ Text.join ", " (missing.map TemplateName.fileName)
  | notFound name => "template " ++ name ++ " not found"
  | render template subject _ =>
      "failed to render template " ++ template.fileName ++ " for `" ++ subject ++ "`"

/-- What lies behind an error, in words. -/
def cause? : TemplateError → Option String
  | load _ fault => some fault.message
  | render _ _ fault => some fault.message
  | _ => none

end TemplateError

/-- Sound templates of one source, with all that are needed among them. -/
structure Registry where
  templates : TemplateSet
  source : TemplateSource
  complete : ∀ name : TemplateName, (templates.find? name.fileName).isSome = true

/-- The sources of the built-in templates. -/
def builtInSources : List (String × String) :=
  [(TemplateName.header.fileName, Template.BuiltIn.header),
    (TemplateName.accessors.fileName, Template.BuiltIn.accessors)]

/-- The ending of template files, as a pattern for a name. -/
def templateFilePattern : List Char := "*.tera".toList

/-- The place where the search in a directory starts, and the pattern it follows from there. The name is a
pattern from its first star on; a place with braces in a name on its way cannot be searched. -/
def templateSearch? (t : File.Tree) (dir : File.Path) : Option (Place × List (List Char)) :=
  let chars := dir.text.toList
  let plain := chars.takeWhile (· != '*')
  let pieces := Text.splitAt '/' (chars.drop plain.length)
  let pattern := if plain = [] then pieces else pieces.filter fun piece => !File.Split.isFiller piece
  let start := if plain = [] then .ok t.cwd else t.locate ⟨String.ofList plain⟩
  match start with
  | .error _ => none
  | .ok place =>
      if plain ≠ [] ∧ place.any (fun name => name.contains '\x7b' || name.contains '\x7d') then none
      else some (place, pattern ++ [['*', '*'], templateFilePattern])

/-- The source of a template file with its name. -/
def readTemplate : Place × Content → Except Template.LoadFault (String × String)
  | (names, .text source) => .ok (String.ofList (Text.joinWith ['/'] names), source)
  | (names, .bytes _) => .error (.unreadable (String.ofList (Text.joinWith ['/'] names)))

/-- The template files that are found for a directory. -/
def templateSources (t : File.Tree) (dir : File.Path) : Except Template.LoadFault (List (String × String)) :=
  match templateSearch? t dir with
  | some (place, steps) => (File.Glob.filesMatching t place steps).mapM readTemplate
  | none => .ok []

namespace Registry

/-- The needed templates that are not in a set. -/
def missing (set : TemplateSet) : List TemplateName :=
  TemplateName.all.filter fun name => (set.find? name.fileName).isNone

theorem isSome_of_missing_eq_nil {set : TemplateSet} (h : missing set = []) (name : TemplateName) :
    (set.find? name.fileName).isSome = true := by
  have present := List.filter_eq_nil_iff.mp h name name.mem_all
  cases found : set.find? name.fileName with
  | none => simp [found] at present
  | some _ => rfl

/-- The registry of a set, if the set is complete. -/
def ofSet (source : TemplateSource) (set : TemplateSet) : Except TemplateError Registry :=
  if h : missing set = [] then .ok ⟨set, source, isSome_of_missing_eq_nil h⟩
  else .error (.incomplete source (missing set))

/-- All templates of a source. -/
def sources (t : File.Tree) : TemplateSource → Except TemplateError (List (String × String))
  | .builtIn => .ok builtInSources
  | .directory dir =>
      if t.isDirectory dir then (templateSources t dir).mapError (.load (.directory dir))
      else .error (.missingDirectory dir)

/-- Loads the templates of a source, all or none. -/
def load (t : File.Tree) (source : TemplateSource) : Except TemplateError Registry := do
  let sources ← sources t source
  let set ← (TemplateSet.ofSources sources).mapError (.load source)
  ofSet source set

/-- The names of all templates, in order. -/
def names (r : Registry) : List String :=
  (r.templates.templates.map (·.name)).mergeSort fun a b => a ≤ b

/-- A template by the text it is asked for by. -/
def find (_ : Registry) (text : String) : Except TemplateError TemplateName :=
  match TemplateName.ofText? text with
  | some name => .ok name
  | none => .error (.notFound text)

/-- The text of a template. The subject is what an error speaks of. -/
def render (r : Registry) (name : TemplateName) (subject : String) (context : Value) :
    Except TemplateError String :=
  (r.templates.render name.fileName context).mapError (.render name subject)

end Registry

end Accessors
