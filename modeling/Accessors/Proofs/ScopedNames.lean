import Accessors.Proofs.AliasChain
import Accessors.Proofs.PathHeads
import Accessors.Proofs.UseLeaves

/-!
Names that are in scope where a struct is declared: its parameters, the types of its module and the primitive
types. The writing of a type looks only at the imports, so such a name stays as it is written unless an import of
that spelling comes before it, which a `use` of a function, a macro or a module is enough for.
-/

namespace Accessors

/-- The types of the fields in the order of their declaration. -/
def Fields.types : Fields → List Ty
  | .named fields => fields.map Prod.snd
  | .positional types => types
  | .unit => []

theorem Fields.signatures_of_describe (imports : ImportMap) (fields : Fields) :
    (fields.describe imports).map FieldDescriptor.signature = fields.types.map (Signature.ty imports) := by
  cases fields with
  | named fields => simp [describe, types]
  | positional listed =>
      have inOrder : (listed.zipIdx.map Prod.fst).map (Signature.ty imports)
          = listed.map (Signature.ty imports) := by
        rw [List.zipIdx_map_fst]
      rw [types, ← inOrder, describe, List.map_map, List.map_map]
      rfl
  | unit => rfl

namespace StructDecl

/-- What the types of the fields and the generics are written in. -/
def parts (decl : StructDecl) : List Signature.Part :=
  decl.fields.types.flatMap Signature.parts
    ++ (Signature.paramParts decl.generics ++ Signature.whereParts decl.generics)

/-- The unqualified paths in the types of the fields and in the generics. -/
def heads (decl : StructDecl) : List PathHead :=
  decl.fields.types.flatMap Ty.heads ++ decl.generics.heads

theorem heads_of_parts (decl : StructDecl) : Signature.headsOf decl.parts = decl.heads := by
  have fields : Signature.headsOf (decl.fields.types.flatMap Signature.parts)
      = decl.fields.types.flatMap Ty.heads := by
    unfold Signature.headsOf
    rw [List.filterMap_flatMap]
    exact congrArg (decl.fields.types.flatMap ·) (funext Signature.heads_of_parts)
  rw [parts, Signature.heads_of_append, Signature.heads_of_generics, fields, heads]

end StructDecl

/-- The names of the primitive types. -/
def primitiveTypes : List String :=
  ["bool", "char", "str", "i8", "i16", "i32", "i64", "i128", "isize", "u8", "u16", "u32", "u64", "u128", "usize",
    "f32", "f64"]

/-- The name of a type or a constant that a parameter brings into scope. -/
def GenericParam.scoped? : GenericParam → Option Ident
  | .lifetime _ _ => none
  | .type name _ => some name
  | .const name _ => some name

/-- What a head names is in scope without any import. -/
inductive InScope (m : Module) (g : Generics) (head : PathHead) : Prop where
  | parameter {param : GenericParam} {name : Ident} :
      param ∈ g.params → param.scoped? = some name → unraw name.text = unraw head.name.text → InScope m g head
  | declared {symbol : Symbol} :
      symbol ∈ m.symbols → symbol.kind.isType = true → symbol.name = unraw head.name.text → InScope m g head
  | primitive : head.alone = true → unraw head.name.text ∈ primitiveTypes → InScope m g head

/-- Every path of the struct that begins with a name in scope is written with that name. -/
def KeepsScope (m : Module) (decl : StructDecl) : Prop :=
  ∀ part ∈ decl.parts, ∀ head, part.head? = some head → InScope m decl.generics head →
    part.print m.imports = head.name.text

theorem Ident.text_ne_empty (name : Ident) : name.text ≠ "" := by
  intro empty
  apply name.whole.1
  rw [empty]
  rfl

/-- A path is written as one name when that name is all of it. -/
theorem joined_ident {path : List String} (name : Ident) : Text.join "::" path = name.text ↔ path = [name.text] := by
  constructor
  · intro same
    match path with
    | [] => exact absurd same.symm name.text_ne_empty
    | [only] => rw [← same]; rfl
    | first :: second :: rest =>
        -- a separator would bring a colon into the name
        have texts := congrArg String.toList same
        rw [Text.join_cons_to_list _ _ (List.cons_ne_nil second rest)] at texts
        exact absurd (by rw [← texts]; simp) name.colonless
  · intro same
    rw [same]
    rfl

section

variable {t : File.Tree} {layout : CrateLayout} {m : Module}

/-- What a name is imported as in a module that was loaded has no colons in its segments. -/
theorem Module.Loaded.leaf_colonless {name : String} {leaf : UseLeaf} (loaded : m.Loaded t layout)
    (last : lastLeaf? m.items name = some leaf) :
    ∀ piece ∈ absolutize leaf.path m.segments, Text.Colonless piece := by
  intro piece member
  rcases mem_of_absolutize member with inPath | inModule
  · obtain ⟨own, written⟩ := last_leaf_idents last piece inPath
    rw [written]
    exact own.colonless
  · exact loaded.again.1 piece inModule

/-- A name stays as it is written when no import of that spelling is there, or the last one is of a path that is
only that name. -/
theorem imported_text_same (m : Module) (name : Ident) :
    Signature.importedText m.imports name.text = name.text
      ↔ ∀ leaf, lastLeaf? m.items name.text = some leaf → absolutize leaf.path m.segments = [name.text] := by
  unfold Signature.importedText Module.imports
  rw [ImportMap.get_of_items]
  cases last : lastLeaf? m.items name.text with
  | none => simp
  | some leaf =>
      have joined := @joined_ident (absolutize leaf.path m.segments) name
      simpa using joined

/-- A part for a head is written as the name of the head when it is written at all and no import comes before
the name. -/
theorem part_kept_iff {part : Signature.Part} {head : PathHead}
    (shown : part.head? = some head) :
    part.print m.imports = head.name.text
      ↔ head.bounded = false
          ∧ ∀ leaf, lastLeaf? m.items head.name.text = some leaf →
              absolutize leaf.path m.segments = [head.name.text] := by
  cases part with
  | text fixed => exact absurd shown (by simp [Signature.Part.head?])
  | head name alone =>
      rw [← Option.some.inj shown]
      simpa [Signature.Part.print] using imported_text_same m name
  | omitted name alone =>
      rw [← Option.some.inj shown]
      simpa [Signature.Part.print] using name.text_ne_empty.symm

/-- The fields of a resolved struct and its generics keep the names in scope exactly when each of them is either
not imported or imported under a path that is only the name itself, and none stands in the arguments of an
associated name with bounds, which are not written. -/
theorem scope_kept_iff {name : String} {s : ResolvedStruct} (loaded : m.Loaded t layout)
    (resolved : resolveStruct t layout m name = .ok s) :
    ∃ own decl, m.Finds own (.struct decl) ∧ s = .ofDecl name m decl
      ∧ s.describeFields.map FieldDescriptor.signature = decl.fields.types.map (Signature.ty m.imports)
      ∧ (KeepsScope m decl
          ↔ ∀ head ∈ decl.heads, InScope m decl.generics head →
              head.bounded = false
                ∧ ∀ leaf, lastLeaf? m.items head.name.text = some leaf →
                    absolutize leaf.path m.segments = [head.name.text]) := by
  obtain ⟨own, decl, finds, shape⟩ := declared_of_resolved loaded resolved
  refine ⟨own, decl, finds, shape, ?_, ?_⟩
  · rw [shape]
    exact decl.fields.signatures_of_describe m.imports
  · constructor
    · intro keeps head member known
      rw [← decl.heads_of_parts] at member
      obtain ⟨part, present, shown⟩ := List.mem_filterMap.mp member
      exact (part_kept_iff shown).mp (keeps part present head shown known)
    · intro plain part present head shown known
      have member : head ∈ decl.heads := by
        rw [← decl.heads_of_parts]
        exact List.mem_filterMap.mpr ⟨part, present, shown⟩
      exact (part_kept_iff shown).mpr (plain head member known)

end

namespace ScopeSample

/-- A crate of one file, in which a field is of a primitive type whose name is also the name of a module that is
imported. -/
def tree : File.Tree := ⟨[(["lib.rs".toList], .file (.text "use std::f64; struct P<T>(T); struct S { x: f64 }"))], []⟩

def layout : CrateLayout := ⟨⟨"/"⟩, "sample", ⟨"/lib.rs"⟩⟩

def f64 : Ident := ⟨"f64", by decide +kernel⟩

/-- The struct of a name with the descriptions of its fields and how its parts are written. -/
def described (name : String) (m : Module) :
    Option (StructDecl × List FieldDescriptor × List (Signature.Part × String)) :=
  match Symbol.find? m.symbols name with
  | some ⟨_, _, .struct decl⟩ =>
      some (decl, decl.fields.describe m.imports, decl.parts.map fun part => (part, part.print m.imports))
  | _ => none

/-- A struct that the crate declares is what its name is resolved to. -/
theorem resolve_of_described {name : String} {fields : List FieldDescriptor}
    {writing : List (Signature.Part × String)}
    (evaluated : ((Module.loadSegments tree layout ["crate"]).toOption.bind (described name)).map Prod.snd
      = some (fields, writing)) :
    ∃ m decl, m.Loaded tree layout ∧ m.Finds name (.struct decl)
      ∧ resolveStruct tree layout m name = .ok (.ofDecl name m decl) ∧ decl.fields.describe m.imports = fields
      ∧ decl.parts.map (fun part => (part, part.print m.imports)) = writing := by
  obtain ⟨⟨decl, answer⟩, told, same⟩ := Option.map_eq_some_iff.mp evaluated
  obtain ⟨m, loading, tells⟩ := Option.bind_eq_some_iff.mp told
  unfold described at tells
  split at tells
  · next spelling kind own lookup =>
      have finds : m.Finds name (.struct own) := ⟨_, lookup, rfl⟩
      have shape := (Prod.mk.inj (Option.some.inj tells)).2.trans same
      exact ⟨m, own, ⟨[], Outcome.to_option_some.mp loading⟩, finds, resolve_struct finds,
        (Prod.mk.inj shape).1, (Prod.mk.inj shape).2⟩
  · exact absurd tells (by simp)

end ScopeSample

theorem scope_of_sample_kept :
    ∃ m s, m.Loaded ScopeSample.tree ScopeSample.layout
      ∧ resolveStruct ScopeSample.tree ScopeSample.layout m "P" = .ok s ∧ s.describeFields = [⟨"0", "T"⟩]
      ∧ ∃ own decl, m.Finds own (.struct decl) ∧ s = .ofDecl "P" m decl
        ∧ (KeepsScope m decl
            ↔ ∀ head ∈ decl.heads, InScope m decl.generics head →
                head.bounded = false
                  ∧ ∀ leaf, lastLeaf? m.items head.name.text = some leaf →
                      absolutize leaf.path m.segments = [head.name.text]) := by
  have evaluated : ((Module.loadSegments ScopeSample.tree ScopeSample.layout ["crate"]).toOption.bind
      (ScopeSample.described "P")).map Prod.snd
        = some ([⟨"0", "T"⟩], [(.head ⟨"T", by decide +kernel⟩ true, "T"), (.text "<", "<"), (.text "T", "T"),
            (.text ">", ">")]) := by
    decide +kernel
  obtain ⟨m, _, loaded, _, resolved, described, _⟩ := ScopeSample.resolve_of_described evaluated
  obtain ⟨own, decl, finds, shape, _, kept⟩ := scope_kept_iff loaded resolved
  exact ⟨m, _, loaded, resolved, described, own, decl, finds, shape, kept⟩

/-- The name of a primitive type is lost to an import of a module of that name. -/
theorem scope_of_primitive_lost :
    ∃ m decl, m.Loaded ScopeSample.tree ScopeSample.layout ∧ m.Finds "S" (.struct decl)
      ∧ resolveStruct ScopeSample.tree ScopeSample.layout m "S" = .ok (.ofDecl "S" m decl)
      ∧ (ResolvedStruct.ofDecl "S" m decl).describeFields = [⟨"x", "std::f64"⟩] ∧ ¬ KeepsScope m decl := by
  have evaluated : ((Module.loadSegments ScopeSample.tree ScopeSample.layout ["crate"]).toOption.bind
      (ScopeSample.described "S")).map Prod.snd
        = some ([⟨"x", "std::f64"⟩], [(.head ScopeSample.f64 true, "std::f64")]) := by
    decide +kernel
  obtain ⟨m, decl, loaded, finds, resolved, described, writing⟩ := ScopeSample.resolve_of_described evaluated
  refine ⟨m, decl, loaded, finds, resolved, described, ?_⟩
  intro keeps
  have listed : (Signature.Part.head ScopeSample.f64 true, "std::f64")
      ∈ decl.parts.map fun part => (part, part.print m.imports) := by
    rw [writing]
    exact List.mem_singleton_self _
  obtain ⟨part, present, pair⟩ := List.mem_map.mp listed
  obtain ⟨same, printed⟩ := Prod.mk.inj pair
  have kept := keeps part present ⟨ScopeSample.f64, true, false⟩ (by rw [same]; rfl) (.primitive rfl (by decide))
  rw [printed] at kept
  exact absurd kept (by decide)

end Accessors
