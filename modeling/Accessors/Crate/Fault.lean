import Accessors.File.Fault
import Accessors.File.Path
import Accessors.Scope.Symbols
import Accessors.Token.Basic

/-!
Why a module could not be loaded, or why a name in it gives no struct.
-/

namespace Accessors

open File (Fault)

inductive LoadFault where
  | unreadable (file : File.Path) (fault : Fault)
  /-- A file that does not parse, with the first place that cannot be accepted. -/
  | syntaxError (file : File.Path) (pos : Pos)
  | invalidManifest (file : File.Path)
  | noPackage (file : File.Path)
  | noEntry (root : File.Path)
  | badPath
  | rootedPath
  | relativePath
  | undeclared (segment : String) (file : File.Path)
  | missingFile (segment : String) (flat nested : File.Path)
  deriving DecidableEq, Repr, Inhabited

def LoadFault.message : LoadFault → String
  | .unreadable file fault => "failed to read " ++ file.text ++ ": " ++ fault.message
  | .syntaxError file pos =>
      file.text ++ ":" ++ toString pos.line ++ ":" ++ toString pos.column ++ ": unexpected token"
  | .invalidManifest file => "failed to parse " ++ file.text ++ ": not a package manifest"
  | .noPackage file =>
      file.text ++ " has no [package] section; point the crate root at a member crate"
  | .noEntry root => "neither src/lib.rs nor src/main.rs exists under " ++ root.text
  | .badPath => "invalid module path: not a path"
  | .rootedPath => "module path must not start with `::`"
  | .relativePath => "module path must be absolute or crate-relative"
  | .undeclared segment file => "module `" ++ segment ++ "` is not declared in " ++ file.text
  | .missingFile segment flat nested =>
      "file not found for module `" ++ segment ++ "`; expected " ++ flat.text ++ " or " ++ nested.text

/-- What an alias stands for when it is no struct. -/
inductive Underlying where
  /-- A declaration of another kind. -/
  | declared (kind : SymbolKind) (name : String)
  /-- A type that names nothing declared in the crate. -/
  | written (signature : String)
  deriving DecidableEq, Repr, Inhabited

def Underlying.text : Underlying → String
  | .declared kind name => kind.text ++ " `" ++ name ++ "`"
  | .written signature => "`" ++ signature ++ "`"

inductive AliasFault where
  | elsewhere (modulePath : String) (name : String)
  | genericTarget (signature : String)
  deriving DecidableEq, Repr, Inhabited

def AliasFault.message : AliasFault → String
  | .elsewhere modulePath name =>
      "it names a struct in another module; request `" ++ modulePath ++ "." ++ name ++ "` instead"
  | .genericTarget signature =>
      "its target `" ++ signature
        ++ "` has generic arguments, which are not substituted into field types"

inductive ResolutionError where
  | moduleLoad (modulePath : String) (fault : LoadFault)
  | typeNotFound (name modulePath : String)
  | notATypeDeclaration (name : String) (kind : SymbolKind)
  | notAStruct (name : String) (underlying : Underlying)
  | aliasCycle (name : String)
  | unsupportedAlias (name : String) (fault : AliasFault)
  deriving DecidableEq, Repr, Inhabited

def ResolutionError.message : ResolutionError → String
  | .moduleLoad modulePath fault =>
      "loading module `" ++ modulePath ++ "` for inspection: " ++ fault.message
  | .typeNotFound name modulePath =>
      "`" ++ name ++ "` not found in declared types of `" ++ modulePath ++ "`"
  | .notATypeDeclaration name kind =>
      "`" ++ name ++ "` is not a named type (" ++ kind.text ++ " declaration)"
  | .notAStruct name underlying =>
      "type `" ++ name ++ "` is not a struct (underlying type is " ++ underlying.text ++ ")"
  | .aliasCycle name =>
      "type alias `" ++ name ++ "` does not resolve: alias chain is cyclic or too deep"
  | .unsupportedAlias name fault =>
      "type alias `" ++ name ++ "` cannot be given accessors: " ++ fault.message

end Accessors
