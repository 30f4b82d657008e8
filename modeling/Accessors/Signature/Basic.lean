import Accessors.Decl.Ty
import Accessors.Scope.Imports
import Accessors.Text.Basic
import Accessors.Token.Text

/-!
Types in their conventional writing. A type is taken apart into the parts it is written in; only the first name
of a path depends on the module. Where it names an import, the imported path stands in its place; a path with a
leading `::` and the paths of a projection are written as they are.
-/

namespace Accessors.Signature

/-- A part of what is written for a type. -/
inductive Part where
  /-- The same text in every module. -/
  | text (fixed : String)
  /-- The first name of an unqualified path, and whether it is the whole path. -/
  | head (name : Ident) (alone : Bool)
  /-- Such a name in the arguments of an associated name, where these are not written. -/
  | omitted (name : Ident) (alone : Bool)
  deriving DecidableEq, Repr

/-- A name, or the path it is an import of. -/
def importedText (imports : ImportMap) (name : String) : String :=
  match imports.get? name with
  | some path => Text.join "::" path
  | none => name

def Part.print (imports : ImportMap) : Part → String
  | .text fixed => fixed
  | .head name _ => importedText imports name.text
  | .omitted _ _ => ""

/-- The parts one after the other. -/
def written (imports : ImportMap) (parts : List Part) : String :=
  String.join (parts.map (Part.print imports))

/-- The parts of several things with a text between each two. -/
def separated (separator : String) : List (List Part) → List Part
  | [] => []
  | [only] => only
  | first :: second :: rest => first ++ .text separator :: separated separator (second :: rest)

/-- Parts that are not written. -/
def unwritten : List Part → List Part
  | [] => []
  | .text _ :: rest => unwritten rest
  | .head name alone :: rest | .omitted name alone :: rest => .omitted name alone :: unwritten rest

/-- The parameters of a `for` binder, with a space after it. -/
def binderText (binder : Binder) : String :=
  "for<" ++ Text.join ", " (binder.map Lexeme.render) ++ "> "

/-- A binder, if there is one. -/
def binderText? : Option Binder → String
  | none => ""
  | some binder => binderText binder

/-- The word `extern` of a function pointer, with its string if it has one. -/
def abiText : Option (Option TextLiteral) → String
  | none => ""
  | some none => "extern "
  | some (some name) => "extern " ++ name.text ++ " "

mutual

/-- A type. -/
def parts : Ty → List Part
  | .path true segments => .text "::" :: separated "::" (segmentList segments)
  | .path false segments => pathParts segments
  | .projection subject _ [] rest =>
      .text "<" :: parts subject ++ .text ">::" :: separated "::" (segmentList rest)
  | .projection subject _ (first :: more) rest =>
      .text "<" :: parts subject ++ .text " as "
        :: separated "::" (segment first :: segmentList more)
        ++ .text ">::" :: separated "::" (segmentList rest)
  | .reference lifetime isMut target =>
      .text "&" :: (match lifetime with | some l => [.text l.text, .text " "] | none => [])
        ++ (if isMut then [.text "mut "] else []) ++ parts target
  | .pointer isMut target => .text (if isMut then "*mut " else "*const ") :: parts target
  | .slice element => .text "[" :: parts element ++ [.text "]"]
  | .array element length =>
      .text "[" :: parts element ++ [.text "; ", .text (Lexeme.render length), .text "]"]
  | .tuple [only] => .text "(" :: parts only ++ [.text ",)"]
  | .tuple elements => .text "(" :: separated ", " (tyList elements) ++ [.text ")"]
  | .paren inner => .text "(" :: parts inner ++ [.text ")"]
  | .never => [.text "!"]
  | .infer => [.text "_"]
  | .object isDyn bounds =>
      (if isDyn then [.text "dyn "] else []) ++ separated " + " (boundList bounds)
  | .opaqueImpl bounds => .text "impl " :: separated " + " (boundList bounds)
  | .function binder isUnsafe abi inputs variadic output =>
      .text (binderText? binder) :: (if isUnsafe then [.text "unsafe "] else [])
        ++ .text (abiText abi) :: .text "fn("
        :: separated ", " (inputList inputs ++ if variadic then [[.text "..."]] else [])
        ++ .text ")" :: resultParts output
  | .verbatim lexemes => [.text (Lexeme.render lexemes)]

/-- A path whose first segment may be an import. -/
def pathParts : List Segment → List Part
  | [] => []
  | first :: rest =>
      separated "::" ((.head first.name rest.isEmpty :: argsParts first) :: segmentList rest)

/-- A segment as it is written. -/
def segment : Segment → List Part
  | .plain name => [.text name.text]
  | .angle name turbofish args =>
      .text name.text :: .text (if turbofish then "::<" else "<")
        :: separated ", " (argList args) ++ [.text ">"]
  | .call name inputs output =>
      .text name.text :: .text "(" :: separated ", " (tyList inputs) ++ .text ")" :: resultParts output

/-- The arguments of a segment without its name. -/
def argsParts : Segment → List Part
  | .plain _ => []
  | .angle _ turbofish args =>
      .text (if turbofish then "::<" else "<") :: separated ", " (argList args) ++ [.text ">"]
  | .call _ inputs output =>
      .text "(" :: separated ", " (tyList inputs) ++ .text ")" :: resultParts output

/-- The result after an arrow, if there is one. -/
def resultParts : Option Ty → List Part
  | none => []
  | some output => .text " -> " :: parts output

def arg : GenericArg → List Part
  | .lifetime l => [.text l.text]
  | .type t => parts t
  | .const lexemes => [.text (Lexeme.render lexemes)]
  | .binding name args t => .text name.text :: ownArgs args ++ .text " = " :: parts t
  | .constraint name args bounds =>
      .text name.text :: unwritten (ownArgs args) ++ .text ": " :: separated " + " (boundList bounds)

/-- The arguments of an associated name; a `::` before them is not written. -/
def ownArgs : Option (List GenericArg) → List Part
  | none => []
  | some args => .text "<" :: separated ", " (argList args) ++ [.text ">"]

def bound : Bound → List Part
  | .lifetime l => [.text l.text]
  | .trait inParens relaxed binder rooted segments =>
      (if inParens then [.text "("] else []) ++ (if relaxed then [.text "?"] else [])
        ++ .text (binderText? binder)
        :: (if rooted then .text "::" :: separated "::" (segmentList segments) else pathParts segments)
        ++ (if inParens then [.text ")"] else [])
  | .verbatim lexemes => [.text (Lexeme.render lexemes)]

def input : Input → List Part
  | .mk none t => parts t
  | .mk (some name) t => .text name.text :: .text ": " :: parts t

def tyList : List Ty → List (List Part)
  | [] => []
  | t :: rest => parts t :: tyList rest

def segmentList : List Segment → List (List Part)
  | [] => []
  | s :: rest => segment s :: segmentList rest

def argList : List GenericArg → List (List Part)
  | [] => []
  | a :: rest => arg a :: argList rest

def boundList : List Bound → List (List Part)
  | [] => []
  | b :: rest => bound b :: boundList rest

def inputList : List Input → List (List Part)
  | [] => []
  | i :: rest => input i :: inputList rest

end

/-- A type in its conventional writing. -/
def ty (imports : ImportMap) (t : Ty) : String := written imports (parts t)

end Accessors.Signature
