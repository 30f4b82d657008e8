import Accessors.Generation.Error
import Accessors.Proofs.ModulePath

/-!
The messages of errors as lines. A message is put together from words of its own, from names, and from texts that come
from elsewhere: the paths of files, written types, the subjects of templates, and what a library says about a text that
it cannot read. What libraries say stands at the end of a message, so their wording can be left open. A message is one
line exactly if all that it is put together from is.
-/

namespace Accessors

namespace Text

/-- A text without a line break. -/
structure OneLine (text : String) : Prop where
  unbroken : '\n' ∉ text.toList

theorem one_line_iff (text : String) : OneLine text ↔ '\n' ∉ text.toList := ⟨OneLine.unbroken, OneLine.mk⟩

instance (text : String) : Decidable (OneLine text) := decidable_of_iff _ (one_line_iff text).symm

@[simp] theorem one_line_append {front back : String} : OneLine (front ++ back) ↔ OneLine front ∧ OneLine back := by
  rw [one_line_iff, one_line_iff, one_line_iff, String.toList_append, List.mem_append, not_or]

theorem one_line_of_chars {text whole : String} (chars : ∀ c ∈ text.toList, c ∈ whole.toList) (line : OneLine whole) :
    OneLine text :=
  ⟨fun broken => line.unbroken (chars '\n' broken)⟩

theorem one_line_join {separator : String} {pieces : List String} (between : OneLine separator)
    (all : ∀ piece ∈ pieces, OneLine piece) : OneLine (join separator pieces) := by
  induction pieces with
  | nil => exact ⟨List.not_mem_nil⟩
  | cons first rest ih =>
      have later := ih fun piece member => all piece (List.mem_cons_of_mem first member)
      have front := all first List.mem_cons_self
      cases rest with
      | nil => simpa [join] using front
      | cons next more =>
          rw [join, String.intercalate_cons_of_ne_nil (List.cons_ne_nil next more)]
          simp only [one_line_append]
          exact ⟨⟨front, between⟩, later⟩

@[simp] theorem one_line_repr (n : Nat) : OneLine n.repr := by
  constructor
  intro broken
  have digits : n.repr.toList = Nat.toDigits 10 n := by simp [Nat.repr]
  rw [digits] at broken
  have digit := Nat.isDigit_of_mem_toDigits (b := 10) (n := n) (by decide) (by decide) broken
  exact absurd digit (by decide)

end Text

open Text (OneLine)

theorem Ident.one_line (name : Ident) : OneLine name.text := ⟨name.lacks (by decide) (by decide)⟩

theorem Ident.unraw_one_line (name : Ident) : OneLine (unraw name.text) := by
  constructor
  intro broken
  rcases name.unraw_chars '\n' broken with mark | continues
  · exact absurd mark (by decide)
  · exact absurd continues (by decide)

/-- The system words each fault in one line. -/
@[simp] theorem File.Fault.one_line (fault : File.Fault) : OneLine fault.message := by
  cases fault <;> decide

@[simp] theorem SymbolKind.one_line (kind : SymbolKind) : OneLine kind.text := by
  cases kind <;> decide

namespace LoadFault

/-- The message with the words of a library for what the library does not accept. -/
def messageWith (told : String) : LoadFault → String
  | .syntaxError file pos => file.text ++ ":" ++ toString pos.line ++ ":" ++ toString pos.column ++ ": " ++ told
  | .invalidManifest file => "failed to parse " ++ file.text ++ ": " ++ told
  | .badPath => "invalid module path: " ++ told
  | fault => fault.message

/-- The names that the message speaks of. -/
def names : LoadFault → List String
  | .undeclared segment _ | .missingFile segment _ _ => [segment]
  | _ => []

/-- What the message shows that is no name. -/
def shown (told : String) : LoadFault → List String
  | .unreadable file _ | .noPackage file | .noEntry file | .undeclared _ file => [file.text]
  | .syntaxError file _ | .invalidManifest file => [file.text, told]
  | .badPath => [told]
  | .rootedPath | .relativePath => []
  | .missingFile _ flat nested => [flat.text, nested.text]

/-- Some words give the message itself. -/
theorem message_with_own (fault : LoadFault) : ∃ told, fault.messageWith told = fault.message := by
  unfold messageWith message
  cases fault with
  | syntaxError file pos =>
      have words : ": unexpected token" = ": " ++ "unexpected token" := by decide
      exact ⟨"unexpected token", by simp only [words, String.append_assoc]⟩
  | invalidManifest file =>
      have words : ": not a package manifest" = ": " ++ "not a package manifest" := by decide
      exact ⟨"not a package manifest", by simp only [words, String.append_assoc]⟩
  | badPath => exact ⟨"not a path", by decide⟩
  | _ => exact ⟨"", rfl⟩

theorem one_line_iff (told : String) (fault : LoadFault) :
    OneLine (fault.messageWith told)
      ↔ (∀ name ∈ fault.names, OneLine name) ∧ ∀ text ∈ fault.shown told, OneLine text := by
  unfold messageWith names shown message
  cases fault <;> simp +decide [and_assoc, and_comm]

end LoadFault

namespace ConfigFault

def messageWith (told : String) : ConfigFault → String
  | .invalid file => "failed to parse " ++ file.text ++ ": " ++ told
  | fault => fault.message

def shown (told : String) : ConfigFault → List String
  | .unreadable file _ => [file.text]
  | .invalid file => [file.text, told]
  | .noCrateRoot start => [start.text]

theorem message_with_own (fault : ConfigFault) : ∃ told, fault.messageWith told = fault.message := by
  unfold messageWith message
  cases fault with
  | invalid file =>
      have words : ": not a settings file" = ": " ++ "not a settings file" := by decide
      exact ⟨"not a settings file", by simp only [words, String.append_assoc]⟩
  | _ => exact ⟨"", rfl⟩

theorem one_line_iff (told : String) (fault : ConfigFault) :
    OneLine (fault.messageWith told) ↔ ∀ text ∈ fault.shown told, OneLine text := by
  unfold messageWith shown message
  cases fault <;> simp +decide

end ConfigFault

namespace ResolutionError

def messageWith (told : String) : ResolutionError → String
  | .moduleLoad modulePath fault => "loading module `" ++ modulePath ++ "` for inspection: " ++ fault.messageWith told
  | e => e.message

def names : ResolutionError → List String
  | .moduleLoad modulePath fault => modulePath :: fault.names
  | .typeNotFound name modulePath => [name, modulePath]
  | .notATypeDeclaration name _ | .aliasCycle name | .notAStruct name (.written _)
  | .unsupportedAlias name (.genericTarget _) => [name]
  | .notAStruct name (.declared _ target) => [name, target]
  | .unsupportedAlias name (.elsewhere modulePath target) => [name, modulePath, target]

def shown (told : String) : ResolutionError → List String
  | .moduleLoad _ fault => fault.shown told
  | .notAStruct _ (.written signature) | .unsupportedAlias _ (.genericTarget signature) => [signature]
  | _ => []

theorem one_line_iff (told : String) (e : ResolutionError) :
    OneLine (e.messageWith told) ↔ (∀ name ∈ e.names, OneLine name) ∧ ∀ text ∈ e.shown told, OneLine text := by
  cases e with
  | moduleLoad modulePath fault =>
      have inner := fault.one_line_iff told
      unfold messageWith names shown
      simp +decide [inner, and_assoc]
  | notAStruct name underlying =>
      unfold messageWith names shown message Underlying.text
      cases underlying <;> simp +decide
  | unsupportedAlias name fault =>
      unfold messageWith names shown message AliasFault.message
      cases fault <;> simp +decide
  | typeNotFound name modulePath =>
      unfold messageWith names shown message
      simp +decide
  | notATypeDeclaration name kind =>
      unfold messageWith names shown message
      simp +decide
  | aliasCycle name =>
      unfold messageWith names shown message
      simp +decide

end ResolutionError

namespace TemplateError

/-- The message with what a library says behind it, where a library has something to say. -/
def chainWith (told : String) (e : TemplateError) : String :=
  match e.cause? with
  | some _ => e.message ++ ": " ++ told
  | none => e.message

def names : TemplateError → List String
  | .notFound name => [name]
  | _ => []

def shown (told : String) : TemplateError → List String
  | .load source _ => [source.text, told]
  | .missingDirectory dir => [dir.text]
  | .incomplete source _ => [source.text]
  | .notFound _ => []
  | .render _ subject _ => [subject, told]

theorem one_line_iff (told : String) (e : TemplateError) :
    OneLine (e.chainWith told) ↔ (∀ name ∈ e.names, OneLine name) ∧ ∀ text ∈ e.shown told, OneLine text := by
  have file (name : TemplateName) : OneLine name.fileName := by cases name <;> decide
  have files (missing : List TemplateName) : OneLine (Text.join ", " (missing.map TemplateName.fileName)) := by
    apply Text.one_line_join (by decide)
    intro piece member
    obtain ⟨name, _, rfl⟩ := List.mem_map.mp member
    exact file name
  unfold chainWith names shown message cause?
  cases e <;> simp +decide [file, files]

end TemplateError

namespace Error

/-- The message with what lies behind it, in the words of a library where it is a library that finds fault. -/
def chainWith (told : String) : Error → String
  | resolution cause => cause.messageWith told
  | template cause => cause.chainWith told
  | config cause => "configuration error: " ++ cause.messageWith told
  | e => e.chain

def names : Error → List String
  | usage cause =>
      match cause.fault with
      | .badName name | .badModule name => [cause.raw, name]
      | _ => [cause.raw]
  | resolution cause => cause.names
  | template cause => cause.names
  | missingContext cause => [cause.name]
  | startedTwice state => [state.text]
  | io _ _ | config _ => []

def shown (told : String) : Error → List String
  | resolution cause => cause.shown told
  | template cause => cause.shown told
  | io path _ => [path.text]
  | config cause => cause.shown told
  | usage _ | missingContext _ | startedTwice _ => []

/-- Some words of the library give the chain itself. -/
theorem chain_with_own (e : Error) : ∃ told, e.chainWith told = e.chain := by
  cases e with
  | resolution cause =>
      cases cause with
      | moduleLoad modulePath fault =>
          obtain ⟨told, same⟩ := fault.message_with_own
          refine ⟨told, ?_⟩
          unfold chainWith ResolutionError.messageWith chain cause? message ResolutionError.message
          simp only [same]
      | _ => exact ⟨"", rfl⟩
  | template cause =>
      unfold chainWith TemplateError.chainWith chain cause? message
      cases told : cause.cause? with
      | none => exact ⟨"", by simp only [told]⟩
      | some words => exact ⟨words, by simp only [told]⟩
  | config cause =>
      obtain ⟨told, same⟩ := cause.message_with_own
      refine ⟨told, ?_⟩
      unfold chainWith chain cause? message
      simp only [same]
  | _ => exact ⟨"", rfl⟩

theorem one_line_iff (told : String) (e : Error) :
    OneLine (e.chainWith told) ↔ (∀ name ∈ e.names, OneLine name) ∧ ∀ text ∈ e.shown told, OneLine text := by
  cases e with
  | usage cause =>
      obtain ⟨raw, fault⟩ := cause
      unfold chainWith names shown chain cause? message MalformedReference.message ReferenceFault.message
      cases fault <;> simp +decide
  | resolution cause => exact cause.one_line_iff told
  | template cause => exact cause.one_line_iff told
  | missingContext cause =>
      unfold chainWith names shown chain cause? message MissingContext.message
      simp +decide
  | io path fault =>
      unfold chainWith names shown chain cause? message
      simp +decide
  | config cause =>
      have inner := cause.one_line_iff told
      unfold chainWith names shown
      simp +decide [inner]
  | startedTwice state =>
      unfold chainWith names shown chain cause? message
      simp +decide

end Error

end Accessors
