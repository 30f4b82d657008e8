import Accessors.Decl.Item
import Accessors.Name

/-!
The named declarations of a module in source order. One name may be declared both as a type and as a value;
looking it up prefers the type.
-/

namespace Accessors

inductive SymbolKind where
  | struct
  | enum
  | union
  | trait
  | typeAlias
  | function
  | const
  | static
  | module
  | macroRule
  deriving DecidableEq, Repr, Inhabited

namespace SymbolKind

/-- Whether such a declaration names a type. -/
def isType : SymbolKind → Bool
  | struct | enum | union | trait | typeAlias => true
  | _ => false

/-- The kind as messages write it. -/
def text : SymbolKind → String
  | struct => "struct"
  | enum => "enum"
  | union => "union"
  | trait => "trait"
  | typeAlias => "type alias"
  | function => "function"
  | const => "const"
  | static => "static"
  | module => "module"
  | macroRule => "macro"

end SymbolKind

/-- The name an item declares, as written, and what it is. -/
def Item.declared? : Item → Option (Ident × SymbolKind)
  | .struct decl => some (decl.name, .struct)
  | .enum name => some (name, .enum)
  | .union name => some (name, .union)
  | .trait name => some (name, .trait)
  | .typeAlias decl => some (decl.name, .typeAlias)
  | .function name => some (name, .function)
  | .const name => some (name, .const)
  | .static name => some (name, .static)
  | .module name _ _ => some (name, .module)
  | .macroCall name => name.map (·, .macroRule)
  | .use _ _ => none
  | .impl _ => none
  | .other => none

/-- A named declaration; its name has no raw mark. -/
structure Symbol where
  name : String
  kind : SymbolKind
  item : Item
  deriving Inhabited

namespace Symbol

/-- The declaration an item makes. -/
def ofItem? (item : Item) : Option Symbol :=
  item.declared?.map fun (name, kind) => ⟨unraw name.text, kind, item⟩

/-- The declarations of a module. -/
def ofItems (items : List Item) : List Symbol :=
  items.filterMap ofItem?

/-- The declaration of a name, which may carry a raw mark: the first type of that name, else the first
declaration. -/
def find? (symbols : List Symbol) (name : String) : Option Symbol :=
  let named := symbols.filter (·.name == unraw name)
  (named.find? (·.kind.isType)).or named.head?

/-- What lookup finds is one of the declarations, and its name is the one that was looked for. -/
theorem find_some {symbols : List Symbol} {name : String} {symbol : Symbol}
    (found : find? symbols name = some symbol) : symbol ∈ symbols ∧ symbol.name = unraw name := by
  have listed : symbol ∈ symbols.filter (·.name == unraw name) := by
    unfold find? at found
    rcases Option.or_eq_some_iff.mp found with typed | ⟨_, first⟩
    · exact List.mem_of_find?_eq_some typed
    · exact List.mem_of_mem_head? first
  have member := List.mem_filter.mp listed
  exact ⟨member.1, by simpa using member.2⟩

/-- A declaration of a module comes from an item, which says its name and kind. -/
theorem mem_of_items {items : List Item} {symbol : Symbol} (member : symbol ∈ ofItems items) :
    ∃ name, symbol.item.declared? = some (name, symbol.kind) ∧ symbol.name = unraw name.text := by
  obtain ⟨item, _, made⟩ := List.mem_filterMap.mp member
  unfold ofItem? at made
  obtain ⟨⟨name, kind⟩, declared, shape⟩ := Option.map_eq_some_iff.mp made
  rw [← shape]
  exact ⟨name, declared, rfl⟩

end Symbol

end Accessors
