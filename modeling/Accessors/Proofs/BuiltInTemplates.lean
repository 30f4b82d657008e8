import Accessors.Proofs.PlainTemplate
import Accessors.Template.Registry

/-!
The built-in templates are plain: their source is read as text with variables in it and nothing else. So the
registry that holds them always loads, and rendering fills their places and changes nothing around them.
-/

namespace Accessors

open Template (Piece Loaded TemplateSet Value)

namespace Template

/-- A source that is read as pieces makes a template without parents, blocks and macros. -/
theorem of_source_pieces {name source : String} {pieces : List Piece}
    (read : (Grammar.parse? source).bind pieces? = some pieces) :
    Loaded.ofSource name source = .ok ⟨name, pieces.map Piece.node, none, [], [], []⟩ := by
  obtain ⟨nodes, parsed, plain⟩ := Option.bind_eq_some_iff.mp read
  have shape := nodes_of_pieces plain
  have blocks (pieces : List Piece) : blocksOf (pieces.map Piece.node) = [] := by
    induction pieces with
    | nil => simp [blocksOf]
    | cons piece rest ih => cases piece <;> simpa [Piece.node, blocksOf] using ih
  have macros : (pieces.map Piece.node).filterMap macroOf? = [] := by
    rw [List.filterMap_map, List.filterMap_eq_nil_iff]
    intro piece _
    cases piece <;> rfl
  have parents : (pieces.map Piece.node).findSome? parentOf? = none := by
    rw [List.findSome?_eq_none_iff]
    intro node member
    obtain ⟨piece, _, same⟩ := List.mem_map.mp member
    rw [← same]
    cases piece <;> rfl
  have libraries : (pieces.map Piece.node).filterMap libraryOf? = [] := by
    rw [List.filterMap_map, List.filterMap_eq_nil_iff]
    intro piece _
    cases piece <;> rfl
  unfold Loaded.ofSource
  rw [parsed]
  simp only [shape, trim_template_pieces, blocks, macros, parents, libraries]
  rfl

end Template

namespace Template.BuiltIn

def headerPieces : List Piece :=
  [.written "// @generated by accessor-gen for package `", .place "package_name", .written "` from `",
    .place "source_file", .written "`. Do not edit.\n"]

def accessorsPieces : List Piece :=
  [.written "impl", .place "impl_generics", .written " ", .place "struct_name", .place "type_generics",
    .place "where_clause", .written " \x7b\n    pub fn get_", .place "accessor_name",
    .written "(&self) -> &", .place "field_type", .written " \x7b\n        &self.", .place "field_name",
    .written "\n    \x7d\n\n    pub fn set_", .place "accessor_name", .written "(&mut self, val: ",
    .place "field_type", .written ") \x7b\n        self.", .place "field_name",
    .written " = val;\n    \x7d\n\x7d\n"]

theorem header_read : (Grammar.parse? header).bind pieces? = some headerPieces := by
  decide +kernel

theorem accessors_read : (Grammar.parse? accessors).bind pieces? = some accessorsPieces := by
  decide +kernel

theorem header_filled (fill : String → String) :
    String.join (headerPieces.map (Piece.filled fill)) = headerWith fill := by
  unfold headerPieces headerWith
  simp only [List.map_cons, List.map_nil, Piece.filled, String.join_cons, String.join_nil]
  simp only [String.append_assoc]
  rw [String.append_empty]

theorem accessors_filled (fill : String → String) :
    String.join (accessorsPieces.map (Piece.filled fill)) = accessorsWith fill := by
  unfold accessorsPieces accessorsWith
  simp only [List.map_cons, List.map_nil, Piece.filled, String.join_cons, String.join_nil]
  simp only [String.append_assoc]
  rw [String.append_empty]

end Template.BuiltIn

namespace Registry

/-- The registry of the built-in templates. -/
def builtIn : Registry where
  templates := ⟨[
    ⟨TemplateName.header.fileName, Template.BuiltIn.headerPieces.map Piece.node, none, [], [], []⟩,
    ⟨TemplateName.accessors.fileName, Template.BuiltIn.accessorsPieces.map Piece.node, none, [], [], []⟩]⟩
  source := .builtIn
  complete := by
    intro name
    cases name <;> rfl

theorem load_built_in (t : File.Tree) : load t .builtIn = .ok builtIn := by
  have header : Loaded.ofSource TemplateName.header.fileName Template.BuiltIn.header = .ok _ :=
    Template.of_source_pieces Template.BuiltIn.header_read
  have accessors : Loaded.ofSource TemplateName.accessors.fileName Template.BuiltIn.accessors = .ok _ :=
    Template.of_source_pieces Template.BuiltIn.accessors_read
  have all : builtInSources.mapM (fun file => Loaded.ofSource file.1 file.2) = .ok builtIn.templates.templates := by
    rw [builtInSources, List.mapM_cons, header, List.mapM_cons, accessors, List.mapM_nil]
    rfl
  have sound : builtIn.templates.templates.findSome? builtIn.templates.fault? = none := rfl
  have set : TemplateSet.ofSources builtInSources = .ok builtIn.templates := by
    unfold TemplateSet.ofSources
    rw [all]
    simp only [bind, Except.bind, sound]
  unfold load sources
  simp only [bind, Except.bind, set]
  rfl

/-- The header is rendered as its own text with the places filled. -/
theorem render_header {subject : String} {entries : List (String × Value)} {fill : String → String}
    (bound : ∀ name, Piece.place name ∈ Template.BuiltIn.headerPieces →
      entries.lookup name = some (.string (fill name))) :
    builtIn.render .header subject (.object entries) = .ok (Template.BuiltIn.headerWith fill) := by
  have found : builtIn.templates.find? TemplateName.header.fileName
      = some ⟨TemplateName.header.fileName, Template.BuiltIn.headerPieces.map Piece.node, none, [], [], []⟩ := rfl
  have rendered := Template.render_plain_template found rfl rfl bound
  unfold Registry.render
  rw [rendered, Template.BuiltIn.header_filled]
  rfl

/-- The accessors of a field are rendered as the text of their template with the places filled. -/
theorem render_accessors {subject : String} {entries : List (String × Value)} {fill : String → String}
    (bound : ∀ name, Piece.place name ∈ Template.BuiltIn.accessorsPieces →
      entries.lookup name = some (.string (fill name))) :
    builtIn.render .accessors subject (.object entries) = .ok (Template.BuiltIn.accessorsWith fill) := by
  have found : builtIn.templates.find? TemplateName.accessors.fileName
      = some ⟨TemplateName.accessors.fileName, Template.BuiltIn.accessorsPieces.map Piece.node,
          none, [], [], []⟩ := rfl
  have rendered := Template.render_plain_template found rfl rfl bound
  unfold Registry.render
  rw [rendered, Template.BuiltIn.accessors_filled]
  rfl

end Registry

end Accessors
