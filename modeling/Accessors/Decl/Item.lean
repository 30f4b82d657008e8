import Accessors.Decl.Ty

/-!
Items of a module, as far as the generator looks at them: which names they declare, the fields and generics
of structs, the parameters and targets of type aliases, the bodies of modules, the trees of `use` declarations, and the
functions of implementations, which is what the generator writes.
-/

namespace Accessors

/-- What a `use` declaration brings into scope. -/
inductive UseTree where
  /-- A segment and what follows it. -/
  | path (name : Ident) (tree : UseTree)
  | name (name : Ident)
  | rename (name : Ident) (newName : Ident)
  | glob
  | group (trees : List UseTree)
  deriving Inhabited

inductive GenericParam where
  | lifetime (name : Lifetime) (bounds : List Lifetime)
  | type (name : Ident) (bounds : List Bound)
  | const (name : Ident) (ty : Ty)
  deriving Inhabited

inductive WherePredicate where
  | lifetime (name : Lifetime) (bounds : List Lifetime)
  | type (binder : Option Binder) (subject : Ty) (bounds : List Bound)
  deriving Inhabited

/-- Generic parameters with the predicates on them. -/
structure Generics where
  params : List GenericParam
  predicates : List WherePredicate
  deriving Inhabited

/-- The fields of a struct: with names, by position, or none at all. -/
inductive Fields where
  | named (fields : List (Ident × Ty))
  | positional (types : List Ty)
  | unit
  deriving Inhabited

structure StructDecl where
  name : Ident
  generics : Generics
  fields : Fields
  deriving Inhabited

structure AliasDecl where
  name : Ident
  params : List GenericParam
  target : Ty
  deriving Inhabited

inductive FnParam where
  | receiver
  | typed (ty : Ty)
  /-- The dots that stand for further arguments. -/
  | variadic
  deriving Inhabited

/-- A function by its name, its parameters and its result. -/
structure FnDecl where
  name : Ident
  params : List FnParam
  output : Option Ty
  deriving Inhabited

/-- An implementation with the functions in it. -/
structure ImplDecl where
  generics : Generics
  /-- The trait, if it is the implementation of one. -/
  ofTrait : Option Ty
  target : Ty
  functions : List FnDecl
  deriving Inhabited

/-- A top-level declaration. Names are kept as written. -/
inductive Item where
  | struct (decl : StructDecl)
  | enum (name : Ident)
  | union (name : Ident)
  | trait (name : Ident)
  | typeAlias (decl : AliasDecl)
  | function (name : Ident)
  | const (name : Ident)
  | static (name : Ident)
  /-- A module: the file named by a `path` attribute, and the items if they stand in braces. -/
  | module (name : Ident) (file : Option String) (body : Option (List Item))
  /-- A macro call, which declares a name if one is given. -/
  | macroCall (name : Option Ident)
  /-- A `use` declaration, with a leading `::` or without. -/
  | use (rooted : Bool) (tree : UseTree)
  | impl (decl : ImplDecl)
  /-- A declaration that binds no name looked at here. -/
  | other
  deriving Inhabited

end Accessors
