import Accessors.Crate.Alias

/-!
Resolving a declared name to a struct. A name that is an alias is followed through aliases, also into other
modules of the crate, but the struct it comes to has to be declared in the module of the name, because the
accessors stand there.
-/

namespace Accessors

/-- A struct under the name it was asked for. -/
structure ResolvedStruct where
  name : String
  /-- The module that declares the struct. -/
  modulePath : String
  fields : Fields
  /-- The imports where the fields are declared. -/
  imports : ImportMap
  generics : Signature.GenericsText
  deriving Inhabited

namespace ResolvedStruct

def ofDecl (name : String) (m : Module) (decl : StructDecl) : ResolvedStruct :=
  ⟨name, m.path, decl.fields, m.imports, Signature.generics m.imports decl.generics⟩

end ResolvedStruct

/-- The struct a name means in a module. -/
def resolveStruct (t : File.Tree) (layout : CrateLayout) (m : Module) (name : String) :
    Except ResolutionError ResolvedStruct :=
  match Symbol.find? m.symbols name with
  | none => .error (.typeNotFound name m.path)
  | some symbol =>
      if !symbol.kind.isType then .error (.notATypeDeclaration name symbol.kind)
      else
        match symbol.item with
        | .struct decl => .ok (.ofDecl name m decl)
        | .typeAlias decl => do
            let (found, struct) ← (AliasWalk.start m name decl.target).follow t layout name
            if found.path ≠ m.path then
              .error (.unsupportedAlias name (.elsewhere found.path struct.name.text))
            else .ok (.ofDecl name found struct)
        | _ => .error (.notAStruct name (.declared symbol.kind name))

/-- A field with its name and the conventional writing of its type. -/
structure FieldDescriptor where
  /-- The name as written, or the position in a struct without field names. -/
  name : String
  signature : String
  deriving DecidableEq, Repr, Inhabited

/-- The fields in the order of their declaration. -/
def Fields.describe (imports : ImportMap) : Fields → List FieldDescriptor
  | .named fields => fields.map fun (name, ty) => ⟨name.text, Signature.ty imports ty⟩
  | .positional types => types.zipIdx.map fun (ty, i) => ⟨toString i, Signature.ty imports ty⟩
  | .unit => []

def ResolvedStruct.describeFields (s : ResolvedStruct) : List FieldDescriptor :=
  s.fields.describe s.imports

end Accessors
