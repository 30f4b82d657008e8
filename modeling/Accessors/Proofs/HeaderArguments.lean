import Accessors.Proofs.AliasChain
import Accessors.Proofs.ImplHeader

/-!
The arguments in the header of an implementation. They are the parameters of the struct that has the fields, while the
name in front of them is the one that was asked for. For a struct the two belong together. An alias is followed only
over targets without arguments, but such a target may still name a struct with parameters, if these have defaults. So
the number of the arguments is right for an alias just if it declares as many parameters as the struct at the end of
its chain.
-/

namespace Accessors

/-! The number of arguments that are written. -/

namespace Text

/-- Pieces without a comma have one comma less between them than there are pieces. -/
theorem count_comma_join {pieces : List String} (some : pieces ≠ []) (plain : ∀ piece ∈ pieces, ',' ∉ piece.toList) :
    (join ", " pieces).toList.count ',' + 1 = pieces.length := by
  induction pieces with
  | nil => exact absurd rfl some
  | cons piece rest ih =>
      have first : piece.toList.count ',' = 0 := List.count_eq_zero.mpr (plain piece List.mem_cons_self)
      cases rest with
      | nil => simp [join, first]
      | cons next more =>
          have later := ih (List.cons_ne_nil next more) fun other member => plain other (List.mem_cons_of_mem piece member)
          have gap : (", ".toList).count ',' = 1 := rfl
          rw [join_cons_to_list _ _ (List.cons_ne_nil next more), List.count_append, List.count_append, first, gap]
          rw [List.length_cons, ← later]
          omega

end Text

namespace Signature

/-- The number of arguments in a text such as `<'a, T>`: one more than there are commas, and none in no text. -/
def argumentCount (text : String) : Nat :=
  if text = "" then 0 else text.toList.count ',' + 1

theorem param_name_comma (p : GenericParam) : ',' ∉ (paramName p).toList := by
  have plain (name : Ident) : ',' ∉ name.text.toList := name.lacks (by decide) (by decide)
  cases p with
  | lifetime l bounds => simpa [paramName, Lifetime.text] using plain l.name
  | type name bounds => exact plain name
  | const name t => exact plain name

/-- As many arguments are written as there are parameters. -/
theorem argument_count_generics (imports : ImportMap) (g : Generics) :
    argumentCount (generics imports g).typeGenerics = g.params.length := by
  have texts : (generics imports g).typeGenerics
      = if g.params.isEmpty then "" else "<" ++ Text.join ", " (g.params.map paramName) ++ ">" := by
    rw [generics, written_angled]
    simp [Function.comp_def]
  rw [texts]
  cases g.params with
  | nil => rfl
  | cons p more =>
      have names : ∀ name ∈ (p :: more).map paramName, ',' ∉ name.toList :=
        List.forall_mem_map.mpr fun q _ => param_name_comma q
      have commas := Text.count_comma_join (List.cons_ne_nil (paramName p) (more.map paramName)) names
      have brackets : ("<" ++ Text.join ", " ((p :: more).map paramName) ++ ">").toList.count ','
          = (Text.join ", " ((p :: more).map paramName)).toList.count ',' := by
        simp
      have written : ("<" ++ Text.join ", " ((p :: more).map paramName) ++ ">") ≠ "" := by
        intro empty
        have chars := congrArg String.toList empty
        simp at chars
      rw [List.isEmpty_cons, if_neg Bool.false_ne_true, argumentCount, if_neg written, brackets]
      rw [← List.length_map paramName]
      exact commas

end Signature

/-! The item that is named, and the struct it stands for. -/

/-- The number of generic parameters that an item declares. -/
def Item.paramCount : Item → Nat
  | .struct decl => decl.generics.params.length
  | .typeAlias decl => decl.params.length
  | _ => 0

/-- The struct that an item of a module stands for: a struct for itself, an alias for the end of its chain. -/
inductive StandsFor (t : File.Tree) (layout : CrateLayout) (m : Module) : Item → Module → StructDecl → Prop where
  | struct {decl : StructDecl} : StandsFor t layout m (.struct decl) m decl
  | aliased {decl : AliasDecl} {steps : Nat} {found : Module} {struct : StructDecl}
      (chain : AliasChain t layout steps m decl.target found struct) :
      StandsFor t layout m (.typeAlias decl) found struct

section

variable {t : File.Tree} {layout : CrateLayout} {m : Module} {name : String} {item : Item} {s : ResolvedStruct}

/-- A name is resolved to the struct that its item stands for. -/
theorem stands_for_of_resolved (finds : m.Finds name item) (resolved : resolveStruct t layout m name = .ok s) :
    ∃ found decl, StandsFor t layout m item found decl ∧ s = .ofDecl name found decl := by
  cases item with
  | struct decl =>
      rw [resolve_struct finds] at resolved
      exact ⟨m, decl, .struct, (Except.ok.inj resolved).symm⟩
  | typeAlias decl =>
      rw [resolve_alias finds] at resolved
      obtain ⟨⟨found, struct⟩, followed, placed⟩ := Outcome.bind_ok.mp resolved
      obtain ⟨steps, _, chain⟩ := AliasWalk.chain_of_follow followed
      simp only at placed
      split at placed
      · exact absurd placed (by simp)
      · exact ⟨found, struct, .aliased chain, (Except.ok.inj placed).symm⟩
  | _ =>
      obtain ⟨symbol, lookup, shape⟩ := finds
      unfold resolveStruct at resolved
      rw [lookup] at resolved
      simp only [shape] at resolved
      split at resolved <;> exact absurd resolved (by simp)

/-- The header of a resolved name has the parameters of the struct that the name stands for as arguments. They are as
many as the item of the name declares if that is a struct, and for an alias just if it declares as many parameters as
the struct. -/
theorem header_arguments_iff (finds : m.Finds name item) (resolved : resolveStruct t layout m name = .ok s) :
    ∃ found decl, StandsFor t layout m item found decl
      ∧ Signature.argumentCount s.generics.typeGenerics = decl.generics.params.length
      ∧ (Signature.argumentCount s.generics.typeGenerics = item.paramCount
          ↔ decl.generics.params.length = item.paramCount)
      ∧ ((∃ own, item = .struct own) → Signature.argumentCount s.generics.typeGenerics = item.paramCount) := by
  obtain ⟨found, decl, stands, shape⟩ := stands_for_of_resolved finds resolved
  have count : Signature.argumentCount s.generics.typeGenerics = decl.generics.params.length := by
    rw [shape]
    exact Signature.argument_count_generics found.imports decl.generics
  refine ⟨found, decl, stands, count, by rw [count], ?_⟩
  rintro ⟨own, rfl⟩
  cases stands
  exact count

end

namespace ArgumentsSample

def layout : CrateLayout := ⟨⟨"/"⟩, "sample", ⟨"/lib.rs"⟩⟩

/-- A crate of one file, with a struct whose parameter has a default and an alias of it. -/
def tree : File.Tree :=
  ⟨[(["lib.rs".toList], .file (.text "struct Grid<const SIZE: usize = 4>(u8); type Small = Grid;"))], []⟩

def struct : StructDecl where
  name := ⟨"Grid", by decide +kernel⟩
  generics := ⟨[.const ⟨"SIZE", by decide +kernel⟩ (.path false [.plain ⟨"usize", by decide +kernel⟩])], []⟩
  fields := .positional [.path false [.plain ⟨"u8", by decide +kernel⟩]]

def aliasDecl : AliasDecl := ⟨⟨"Small", by decide +kernel⟩, [], .path false [.plain ⟨"Grid", by decide +kernel⟩]⟩

def entry : Module := ⟨["crate"], ⟨"/lib.rs"⟩, [.struct struct, .typeAlias aliasDecl]⟩

theorem entry_loaded : Module.loadSegments tree layout ["crate"] = .ok entry := rfl

theorem finds_struct : entry.Finds "Grid" (.struct struct) := ⟨_, rfl, rfl⟩

theorem finds_alias : entry.Finds "Small" (.typeAlias aliasDecl) := ⟨_, rfl, rfl⟩

theorem alias_resolved : resolveStruct tree layout entry "Small" = .ok (.ofDecl "Small" entry struct) := by
  have arrived : (AliasWalk.start entry "Small" aliasDecl.target).round tree layout "Small"
      = .ok (.arrived entry struct) := rfl
  rw [resolve_alias finds_alias, AliasWalk.follow_of_arrived arrived]
  rfl

end ArgumentsSample

open ArgumentsSample in
theorem header_arguments_of_sample : ∃ s found decl, Module.loadSegments tree layout ["crate"] = .ok entry
    ∧ resolveStruct tree layout entry "Grid" = .ok s ∧ s.generics.typeGenerics = "<SIZE>"
    ∧ StandsFor tree layout entry (.struct struct) found decl
    ∧ Signature.argumentCount s.generics.typeGenerics = (Item.struct struct).paramCount := by
  have resolved : resolveStruct tree layout entry "Grid" = .ok (.ofDecl "Grid" entry struct) :=
    resolve_struct finds_struct
  obtain ⟨found, decl, stands, _, _, own⟩ := header_arguments_iff finds_struct resolved
  exact ⟨_, found, decl, entry_loaded, resolved, by decide +kernel, stands, own ⟨struct, rfl⟩⟩

open ArgumentsSample in
/-- An alias without parameters gets the argument of its struct, whose parameter has a default. -/
theorem header_of_alias_with_argument : ∃ s, Module.loadSegments tree layout ["crate"] = .ok entry
    ∧ entry.Finds "Small" (.typeAlias aliasDecl) ∧ resolveStruct tree layout entry "Small" = .ok s
    ∧ s.generics.typeGenerics = "<SIZE>"
    ∧ Signature.argumentCount s.generics.typeGenerics ≠ (Item.typeAlias aliasDecl).paramCount :=
  ⟨_, entry_loaded, finds_alias, alias_resolved, by decide +kernel, by decide +kernel⟩

end Accessors
