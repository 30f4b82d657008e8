import Accessors.Generation.Invocation
import Accessors.Proofs.Emitted
import Accessors.Proofs.Outcome
import Accessors.Token.Lexer

/-!
The header of a generated file as a comment. Its template is one line, with the name of the package and the path of the
file in it. A lexer passes over all of that line, unless one of the two values goes on behind a line break: around the
values white space is trimmed, inside them it is not.
-/

namespace Accessors

namespace Lexer

/-- The rest of a line is read to its end, if what ends it is not a return. -/
theorem line_length_of_line {line : List Char} {last : Char} (plain : '\n' ∉ line) (solid : last ≠ '\n')
    (noReturn : last ≠ '\r') (rest : List Char) :
    lineLength (line ++ last :: '\n' :: rest) = line.length + 1 := by
  induction line with
  | nil =>
      rw [List.nil_append, lineLength]
      · simp [lineLength]
      · exact solid
      · intro more same
        exact absurd same noReturn
  | cons c line ih =>
      rw [List.mem_cons, not_or] at plain
      have inner := ih plain.2
      rw [List.cons_append, lineLength]
      · rw [inner, List.length_cons]
      · exact fun same => plain.1 same.symm
      · intro more _ shape
        cases line with
        | nil => exact solid (List.cons.inj shape).1
        | cons d line =>
            rw [← (List.cons.inj shape).1] at plain
            exact plain.2 List.mem_cons_self

end Lexer

/-- One line that says that a file is generated, all of it a comment: a lexer takes it but for the line break. -/
structure CommentLine (text : String) : Prop where
  generated : "// @generated".toList <+: text.toList
  line : ∃ comment, text.toList = comment ++ ['\n'] ∧ '\n' ∉ comment
    ∧ Lexer.commentLength text.toList = comment.length

namespace Template.BuiltIn

/-- What the header says behind the slashes, without its last character. -/
def headerBody (fill : String → String) : String :=
  " @generated by accessor-gen for package `" ++ fill "package_name" ++ "` from `" ++ fill "source_file"
    ++ "`. Do not edit"

theorem header_shape (fill : String → String) :
    (headerWith fill).toList = '/' :: '/' :: ((headerBody fill).toList ++ '.' :: '\n' :: []) := by
  have first : "// @generated by accessor-gen for package `" = "//" ++ " @generated by accessor-gen for package `" := by
    decide
  have last : "`. Do not edit.\n" = "`. Do not edit" ++ ".\n" := by decide
  unfold headerWith headerBody
  rw [first, last]
  simp

theorem break_in_body_iff (fill : String → String) :
    '\n' ∈ (headerBody fill).toList ↔ '\n' ∈ (fill "package_name").toList ∨ '\n' ∈ (fill "source_file").toList := by
  have first : '\n' ∉ " @generated by accessor-gen for package `".toList := by decide
  have middle : '\n' ∉ "` from `".toList := by decide
  have last : '\n' ∉ "`. Do not edit".toList := by decide
  unfold headerBody
  simp only [String.toList_append, List.mem_append, first, middle, last, false_or, or_false]

theorem body_begins (fill : String → String) :
    ∃ rest, (headerBody fill).toList = ' ' :: ("@generated".toList ++ rest) := by
  refine ⟨(" by accessor-gen for package `" ++ fill "package_name" ++ "` from `" ++ fill "source_file"
    ++ "`. Do not edit").toList, ?_⟩
  have front : " @generated by accessor-gen for package `" = " @generated" ++ " by accessor-gen for package `" := by
    decide
  unfold headerBody
  rw [front]
  simp

/-- The header is one comment exactly if no value in it has a line break. -/
theorem header_comment_iff (fill : String → String) :
    CommentLine (headerWith fill)
      ↔ '\n' ∉ (fill "package_name").toList ∧ '\n' ∉ (fill "source_file").toList := by
  have shape := header_shape fill
  have whole : (headerWith fill).toList = ('/' :: '/' :: ((headerBody fill).toList ++ ['.'])) ++ ['\n'] := by
    rw [shape]
    simp
  rw [← not_or, ← break_in_body_iff]
  constructor
  · intro comment inside
    obtain ⟨line, text, plain, _⟩ := comment.line
    have same := List.append_cancel_right (whole.symm.trans text)
    apply plain
    rw [← same]
    simp [inside]
  · intro plain
    obtain ⟨rest, begins⟩ := body_begins fill
    have solid : '.' ≠ '\n' := by decide
    have noReturn : '.' ≠ '\r' := by decide
    have length := Lexer.line_length_of_line plain solid noReturn []
    constructor
    · rw [shape, begins]
      exact ⟨rest ++ '.' :: '\n' :: [], by simp⟩
    · refine ⟨_, whole, by simpa using plain, ?_⟩
      rw [begins, List.cons_append] at length
      rw [shape, begins, List.cons_append]
      unfold Lexer.commentLength
      simp only
      rw [length]
      simp

end Template.BuiltIn

namespace Invocation

/-- What is emitted for an invocation. -/
def request (i : Invocation) (structName : String) (generics : Signature.GenericsText)
    (fields : List FieldDescriptor) : EmitRequest :=
  ⟨structName, generics, fields, i.packageName, i.sourceFile⟩

theorem trimmed_of_values {file package : String} {invocation : Invocation}
    (given : ofValues (some file) (some package) = .ok invocation) :
    Text.trim file = invocation.sourceFile.text ∧ Text.trim package = invocation.packageName := by
  unfold ofValues at given
  split at given
  · next source owner present present' =>
      have path := (Option.filter_eq_some_iff.mp present).1
      have name := (Option.filter_eq_some_iff.mp present').1
      rw [← Except.ok.inj given]
      exact ⟨Option.some.inj path, Option.some.inj name⟩
  · exact absurd given (by simp)
  · exact absurd given (by simp)

end Invocation

/-- With the built-in templates every accepted invocation gives a header and then the accessors of each field. The
header is one comment line exactly if neither value, trimmed as it is, has a line break in it. -/
theorem header_line_iff {file package : String} {invocation : Invocation}
    (given : Invocation.ofValues (some file) (some package) = .ok invocation) (t : File.Tree) (structName : String)
    (generics : Signature.GenericsText) :
    ∃ registry header, Registry.load t .builtIn = .ok registry
      ∧ (∀ fields, ((invocation.request structName generics fields).emit registry (.keeping none "")).fault = none
          ∧ ((invocation.request structName generics fields).emit registry (.keeping none "")).sink
            = .keeping none
                (header ++ String.join (fields.map (invocation.request structName generics fields).fieldText)))
      ∧ (CommentLine header ↔ '\n' ∉ (Text.trim package).toList ∧ '\n' ∉ (Text.trim file).toList) := by
  obtain ⟨path, name⟩ := Invocation.trimmed_of_values given
  refine ⟨Registry.builtIn, Template.BuiltIn.headerWith (invocation.request structName generics []).headerFill,
    Registry.load_built_in t, ?_, ?_⟩
  · intro fields
    obtain ⟨sink, fault⟩ := (invocation.request structName generics fields).emit_text
    exact ⟨fault, sink⟩
  · rw [path, name]
    exact Template.BuiltIn.header_comment_iff _

namespace HeaderSample

def invocation : Invocation := ⟨⟨"src/models.rs"⟩, "todo_app"⟩

theorem given : Invocation.ofValues (some "src/models.rs\n") (some "todo_app") = .ok invocation :=
  Outcome.to_option_some.mp (by decide +kernel)

/-- The name of a package with a line break in it. -/
def broken : Invocation := ⟨⟨"lib.rs"⟩, "my\napp"⟩

def brokenHeader : String := "// @generated by accessor-gen for package `my\napp` from `lib.rs`. Do not edit.\n"

end HeaderSample

open HeaderSample in
theorem header_of_sample_one_line :
    Invocation.ofValues (some "src/models.rs\n") (some "todo_app") = .ok invocation
      ∧ ∃ header, ((invocation.request "S" default []).emit .builtIn (.keeping none "")).sink = .keeping none header
          ∧ CommentLine header := by
  obtain ⟨registry, header, loaded, emitted, one⟩ := header_line_iff given ⟨[], []⟩ "S" default
  rw [Registry.load_built_in] at loaded
  obtain rfl := Except.ok.inj loaded
  have sink := (emitted []).2
  rw [List.map_nil, String.join_nil, String.append_empty] at sink
  exact ⟨given, header, sink, one.mpr (by decide +kernel)⟩

open HeaderSample in
/-- A line break in the name of a package is accepted, and what stands behind it is no comment. -/
theorem header_of_broken_name :
    Invocation.ofValues (some "lib.rs") (some "my\napp") = .ok broken
      ∧ ((broken.request "S" default []).emit .builtIn (.keeping none "")).sink = .keeping none brokenHeader
      ∧ ¬ CommentLine brokenHeader := by
  refine ⟨Outcome.to_option_some.mp (by decide +kernel), ?_, ?_⟩
  · rw [EmitRequest.emit_text.1]
    decide +kernel
  · intro comment
    obtain ⟨line, text, plain, _⟩ := comment.line
    have ends := congrArg List.dropLast text
    rw [List.dropLast_concat] at ends
    rw [← ends] at plain
    exact plain (by decide +kernel)

end Accessors
