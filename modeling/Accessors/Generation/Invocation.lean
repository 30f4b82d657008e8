import Accessors.File.Path
import Accessors.Text.Blank

/-!
What the build step that asks for accessors says about itself: the file that set it off, and the package the
result belongs to. Both have to be given; white space around them does not count.
-/

namespace Accessors

/-- The variable that names the file that set generation off. -/
def sourceFileVariable : String := "ACCESSOR_GEN_FILE"

/-- The variable that names the package. -/
def packageVariable : String := "ACCESSOR_GEN_PACKAGE"

/-- A value that has to be given and is not. -/
structure MissingContext where
  name : String
  deriving DecidableEq, Repr, Inhabited

def MissingContext.message (m : MissingContext) : String :=
  "missing invocation context: " ++ m.name ++ " is not set"

/-- The build step that asks for accessors. -/
structure Invocation where
  sourceFile : File.Path
  packageName : String
  deriving DecidableEq, Repr, Inhabited

namespace Invocation

/-- A value without the white space around it, unless nothing is left. -/
def present? (value : Option String) : Option String :=
  (value.map Text.trim).filter fun text => !text.isEmpty

/-- The file is looked at first. -/
def ofValues (file package : Option String) : Except MissingContext Invocation :=
  match present? file, present? package with
  | some file, some package => .ok ⟨⟨file⟩, package⟩
  | none, _ => .error ⟨sourceFileVariable⟩
  | some _, none => .error ⟨packageVariable⟩

end Invocation

end Accessors
