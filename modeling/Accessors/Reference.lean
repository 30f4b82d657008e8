import Accessors.Parsing.Source
import Accessors.Text.Blank

/-!
References to a type by its module and its name, as in `crate::models.Item`. The last dot separates the
two. What is wrong with a text that is no reference is told by the first of five checks that fails.
-/

namespace Accessors

/-- Why a text is no reference. -/
inductive ReferenceFault where
  | noDot
  | emptyModule
  | emptyName
  | badName (name : String)
  | badModule (path : String)
  deriving DecidableEq, Repr, Inhabited

def ReferenceFault.message : ReferenceFault → String
  | .noDot => "missing `.` before the type name"
  | .emptyModule => "module path is empty"
  | .emptyName => "type name is empty"
  | .badName name => "`" ++ name ++ "` is not a valid type identifier"
  | .badModule path => "`" ++ path ++ "` is not a valid module path"

/-- A text that is no reference, without the white space around it. -/
structure MalformedReference where
  raw : String
  fault : ReferenceFault
  deriving DecidableEq, Repr, Inhabited

def MalformedReference.message (m : MalformedReference) : String :=
  "expected qualified type as \"crate::path.MyType\", got \"" ++ m.raw ++ "\": " ++ m.fault.message

/-- A type named by its module and its declared name, both as written. -/
structure TypeReference where
  modulePath : String
  typeName : String
  deriving DecidableEq, Repr, Inhabited

namespace TypeReference

def text (r : TypeReference) : String := r.modulePath ++ "." ++ r.typeName

/-- The reference a text without white space around it makes. -/
def ofTrimmed (raw : String) : Except ReferenceFault TypeReference :=
  match Text.splitAtLast? '.' raw.toList with
  | none => .error .noDot
  | some (path, name) =>
      let modulePath := String.ofList path
      let typeName := String.ofList name
      if path = [] then .error .emptyModule
      else if name = [] then .error .emptyName
      else if !Parsing.isIdentText typeName then .error (.badName typeName)
      else if !(Parsing.pathText modulePath).isOk then .error (.badModule modulePath)
      else .ok ⟨modulePath, typeName⟩

def parse (text : String) : Except MalformedReference TypeReference :=
  let raw := Text.trim text
  (ofTrimmed raw).mapError (MalformedReference.mk raw)

end TypeReference

end Accessors
