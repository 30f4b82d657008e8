import Accessors.Token.Basic

/-!
Types as declarations write them. What stands for a computation inside a type (an array length, a constant
argument, a macro, the parameters of a `for` binder) is kept as its lexemes and not interpreted.
-/

namespace Accessors

/-- The parameters of a `for` binder, each as its lexemes. -/
abbrev Binder := List (List Lexeme)

mutual

inductive Ty where
  /-- A path, with a leading `::` or without. -/
  | path (rooted : Bool) (segments : List Segment)
  /-- A path through a type: the type, the trait it is read as (no segments if none is named), and the
  segments after it. -/
  | projection (subject : Ty) (traitRooted : Bool) (traitPath : List Segment) (rest : List Segment)
  | reference (lifetime : Option Lifetime) (isMut : Bool) (target : Ty)
  | pointer (isMut : Bool) (target : Ty)
  | slice (element : Ty)
  | array (element : Ty) (length : List Lexeme)
  | tuple (elements : List Ty)
  | paren (inner : Ty)
  | never
  | infer
  /-- A trait object, with the word `dyn` or without. -/
  | object (isDyn : Bool) (bounds : List Bound)
  /-- An anonymous type that meets some bounds. -/
  | opaqueImpl (bounds : List Bound)
  /-- A function pointer. The outer option of `abi` is the word `extern`, the inner one its string. -/
  | function (binder : Option Binder) (isUnsafe : Bool) (abi : Option (Option TextLiteral))
      (inputs : List Input) (variadic : Bool) (output : Option Ty)
  /-- A type that is kept as it was written. -/
  | verbatim (lexemes : List Lexeme)

/-- One segment of a path with its arguments. -/
inductive Segment where
  | plain (name : Ident)
  /-- Arguments in angle brackets; the flag is the `::` in front of them. -/
  | angle (name : Ident) (turbofish : Bool) (args : List GenericArg)
  /-- Arguments in parentheses, with an optional result. -/
  | call (name : Ident) (inputs : List Ty) (output : Option Ty)

inductive GenericArg where
  | lifetime (name : Lifetime)
  | type (ty : Ty)
  /-- A constant, or a constant bound to a name. -/
  | const (lexemes : List Lexeme)
  /-- A type bound to an associated name, which may have arguments of its own. -/
  | binding (name : Ident) (args : Option (List GenericArg)) (ty : Ty)
  /-- Bounds on an associated name, which may have arguments of its own. -/
  | constraint (name : Ident) (args : Option (List GenericArg)) (bounds : List Bound)

inductive Bound where
  | lifetime (name : Lifetime)
  /-- A trait, perhaps in parentheses, perhaps relaxed by a question mark. -/
  | trait (inParens : Bool) (relaxed : Bool) (binder : Option Binder) (rooted : Bool)
      (segments : List Segment)
  | verbatim (lexemes : List Lexeme)

inductive Input where
  | mk (name : Option Ident) (ty : Ty)

end

instance : Inhabited Ty := ⟨.never⟩
instance : Inhabited Segment := ⟨.plain default⟩

namespace Segment

def name : Segment → Ident
  | plain n => n
  | angle n _ _ => n
  | call n _ _ => n

def hasArgs : Segment → Bool
  | plain _ => false
  | _ => true

end Segment

end Accessors
