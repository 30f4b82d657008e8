import Accessors.Proofs.AccessorItems
import Accessors.Proofs.GenericsGlyphs
import Accessors.Proofs.HeaderLine
import Accessors.Proofs.ImplHeader
import Accessors.Proofs.ModulePath

/-!
The items of a generated file. The text that is generated for a struct is parsed as a file if and only if each field can
be selected and its type, as it is written, can be referred to. Then the file has one implementation for each field, in
their order, with the getter and the setter of the field.
-/

namespace Accessors

open Lexer (AdvancesAll Closed Lexes Parted ReadAs nested startsPunct)
open Parsing (structText parse typeText fileItems implItem rules levelsFor IsType IsReferred IsHead Answers OpensImpl Selectable
  accessorTrees getterHead setterHead)

/-! Parts that were read alone. -/

theorem tokens_of_read {text : String} {lexemes : List Lexeme} (advances : AdvancesAll text.toList lexemes [])
    (partners : nested [] lexemes = true) (known : ∀ c, text.toList.head? = some c → c ≠ Lexer.byteOrderMark) :
    ∃ tokens, Lexer.tokens text = .ok tokens ∧ tokens.map Token.lexeme = lexemes := by
  have found := advances.tokens partners known
  rwa [String.ofList_toList] at found

theorem lexed_of_parse {α : Type} {p : Parsing.Parser α} {a : α} {text : String} (parsed : parse p text = .ok a) :
    (Lexer.tokens text).isOk = true := by
  rw [parse] at parsed
  cases lexed : Lexer.tokens text with
  | error place => rw [lexed] at parsed; cases parsed
  | ok tokens => rfl

/-- A type that was read alone, and whether it may stand behind an ampersand. -/
theorem type_read {text : String} {t : Ty} (closed : Closed text) (typed : typeText text = .ok t) :
    ∃ lexemes, ReadAs text.toList lexemes ∧ IsType (8 * lexemes.length + 63) (TokenTree.ofLexemes lexemes) t
      ∧ (typeText ("&" ++ text) = .ok (.reference none false t)
        ↔ IsReferred (8 * lexemes.length + 64) (TokenTree.ofLexemes lexemes) t) := by
  have alone : ∀ opened, Lexes "".toList opened → opened = [] := by
    intro opened lexes
    rcases lexes.cases with ⟨-, rfl⟩ | ⟨_, _, found, -⟩ | ⟨_, _, shape, -⟩ | ⟨_, _, _, shape, -, -⟩
    · rfl
    · cases found
    · cases shape
    · cases shape
  have parted : Parted "".toList := Parted.nil
  obtain ⟨known, lexemes, read⟩ := closed.read parted alone (by rw [String.append_empty]; exact lexed_of_parse typed)
  have advances := read.advances [] Parted.nil
  rw [List.append_nil] at advances
  obtain ⟨tokens, lexed, same⟩ := tokens_of_read advances read.partners known
  have is : IsType (8 * lexemes.length + 63) (TokenTree.ofLexemes lexemes) t := (Parsing.parse_ok_iff lexed same).mp typed
  refine ⟨lexemes, read, is, ?_⟩
  have behind : ("&" ++ text).toList = '&' :: (text.toList ++ []) := by simp
  have referred : AdvancesAll ("&" ++ text).toList (.punct '&' (startsPunct text.toList) :: lexemes) [] := by
    rw [behind]
    exact Frame.advances_ampersand read [] Parted.nil
  obtain ⟨tokens', lexed', same'⟩ := tokens_of_read referred read.partners (by rw [behind]; simp; decide)
  rw [typeText, Parsing.parse_ok_iff lexed' same']
  exact (Parsing.isReferred_iff is (m := 8 * lexemes.length + 71) (by omega)).symm

/-- An empty block alone leaves nothing open. -/
theorem lexes_block {opened : List Delimiter} (lexes : Lexes " \x7b\x7d".toList opened) : opened = [] := by
  have text : " \x7b\x7d".toList = [' ', '\x7b', '\x7d'] := by decide
  rw [text] at lexes
  rcases lexes.cases with ⟨none, -⟩ | ⟨_, _, found, behind⟩ | ⟨d, _, shape, -⟩ | ⟨d, _, _, shape, -, -⟩
  · cases none
  · cases found
    rcases behind.cases with ⟨none, -⟩ | ⟨_, _, found, -⟩ | ⟨d, rest, shape, inside⟩ | ⟨d, _, _, shape, -, -⟩
    · cases none
    · cases found
    · obtain ⟨-, rfl⟩ := List.cons.inj shape
      rcases inside.cases with ⟨none, -⟩ | ⟨_, _, found, -⟩ | ⟨e, _, shape, -⟩ | ⟨e, rest, opened', shape, same, ended⟩
      · cases none
      · cases found
      · cases e <;> cases shape
      · obtain ⟨-, rfl⟩ := List.cons.inj shape
        obtain ⟨-, rfl⟩ := List.cons.inj same
        rcases ended.cases with ⟨-, rfl⟩ | ⟨_, _, found, -⟩ | ⟨_, _, shape, -⟩ | ⟨_, _, _, shape, -, -⟩
        · rfl
        · cases found
        · cases shape
        · cases shape
    · cases d <;> cases shape
  · cases d <;> cases shape
  · cases d <;> cases shape

/-- The head of an implementation that was read alone, in front of an empty block. -/
theorem head_read {front : String} {decl : ImplDecl} (closed : Closed front) (parsed : parse implItem (front ++ " \x7b\x7d") = .ok decl) :
    ∃ lexemes, ReadAs front.toList lexemes ∧ IsHead (8 * lexemes.length + 80) (TokenTree.ofLexemes lexemes) decl := by
  have parted : Parted " \x7b\x7d".toList := Parted.cons (by decide) _
  obtain ⟨known, lexemes, read⟩ := closed.read parted (fun _ => lexes_block) (lexed_of_parse parsed)
  have block : AdvancesAll " \x7b\x7d".toList [.opening .brace, .closing .brace] [] := by
    have neat : Span.tidy [.blank ' ', .opens .brace, .closes .brace] = true := rfl
    have placed : Span.Placed [] [.blank ' ', .opens .brace, .closes .brace] := trivial
    exact Span.advances_all neat placed
  have advances := (read.advances _ parted).append block
  have whole : (front ++ " \x7b\x7d").toList = front.toList ++ " \x7b\x7d".toList := String.toList_append
  have known' : ∀ c, (front ++ " \x7b\x7d").toList.head? = some c → c ≠ Lexer.byteOrderMark := by
    intro c first
    rw [whole, List.head?_append] at first
    cases shape : front.toList.head? with
    | some d =>
        rw [shape] at first
        cases first
        exact known c shape
    | none =>
        rw [shape] at first
        cases first
        decide
  rw [← whole] at advances
  obtain ⟨tokens, lexed, same⟩ := tokens_of_read advances ((Lexer.nested_append read.partners [] _).trans rfl) known'
  refine ⟨lexemes, read, ?_⟩
  have found := (Parsing.parse_ok_iff lexed same).mp parsed
  rw [List.length_append, TokenTree.of_lexemes_append read.partners] at found
  exact found

/-! The comment in front. -/

theorem advances_break (back : List Char) : AdvancesAll ('\n' :: back) [] back := by
  have neat : Span.tidy [.blank '\n'] = true := rfl
  have placed : Span.Placed back [.blank '\n'] := trivial
  exact Span.advances_all neat placed

theorem header_opens (fill : String → String) (back : List Char) : (Template.BuiltIn.headerWith fill).toList ++ back
    = '/' :: '/' :: ((Template.BuiltIn.headerBody fill).toList ++ '.' :: '\n' :: back) := by
  rw [Template.BuiltIn.header_shape]
  simp

/-- The first line is passed over as a comment, if no value in it has a line break. -/
theorem comment_advances {fill : String → String}
    (plain : '\n' ∉ (fill "package_name").toList ∧ '\n' ∉ (fill "source_file").toList) (back : List Char) :
    AdvancesAll ((Template.BuiltIn.headerWith fill).toList ++ back) [] back := by
  have line : '\n' ∉ (Template.BuiltIn.headerBody fill).toList := by
    rw [Template.BuiltIn.break_in_body_iff, not_or]
    exact plain
  obtain ⟨rest, body⟩ := Template.BuiltIn.body_begins fill
  have dot : '.' ≠ '\n' ∧ '.' ≠ '\r' := by decide
  have length := Lexer.line_length_of_line line dot.1 dot.2 back
  have taken : Lexer.taken? ('/' :: '/' :: ((Template.BuiltIn.headerBody fill).toList ++ '.' :: '\n' :: back))
      = some ([], (Template.BuiltIn.headerBody fill).toList.length + 3) := by
    have plain : Lexer.isGap '/' = false := by decide
    have starts : ∀ rest, Lexer.startsComment ('/' :: '/' :: rest) = true := fun _ => rfl
    rw [Lexer.taken?, plain, if_neg Bool.false_ne_true, if_pos (starts _), Lexer.comment_eq (starts _)]
    rw [body] at length ⊢
    simp only [List.cons_append] at length ⊢
    simp only [Lexer.docComment?, Lexer.commentLength, length, Lexer.heard?]
    rfl
  have comment := Lexer.advances_taken taken
  have behind : ('/' :: '/' :: ((Template.BuiltIn.headerBody fill).toList ++ '.' :: '\n' :: back)).drop
      ((Template.BuiltIn.headerBody fill).toList.length + 3) = '\n' :: back := by
    simp [List.drop_append]
  rw [behind] at comment
  rw [header_opens]
  exact comment.append (advances_break back)

/-! The frame of a field, as text, as lexemes and as trees. -/

namespace Frame
open Accessors.Span
variable {f : Frame}

set_option maxRecDepth 800 in
/-- The text of the accessors is that of their frame. -/
theorem chars_spans {fill : String → String}
    (header : f.header = ("impl" ++ fill "impl_generics" ++ " " ++ fill "struct_name" ++ fill "type_generics" ++ fill "where_clause").toList)
    (getter : f.getter.text = "get_" ++ fill "accessor_name") (setter : f.setter.text = "set_" ++ fill "accessor_name")
    (type : f.type = (fill "field_type").toList) (name : f.name = (fill "field_name").toList) :
    (Template.BuiltIn.accessorsWith fill).toList = charsAll f.spans := by
  unfold Template.BuiltIn.accessorsWith
  simp only [charsAll, spans, getterSpans, setterSpans, List.flatMap_append, List.flatMap_cons,
    List.flatMap_nil, line, chars, Lexeme.text, header, getter, setter, type, name, String.toList_append, List.append_assoc,
    List.cons_append]
  rfl

theorem Sound.nested_spans (sound : f.Sound) : nested [] (lexemesAll f.spans) = true := by
  have header := fun back => Lexer.nested_append sound.header.partners [] back
  have type := fun outer back => Lexer.nested_append sound.type.partners outer back
  have selector : ∀ opened back, nested opened (f.nameLexeme :: back) = nested opened back := by
    intro opened back
    obtain ⟨name, ⟨field, same, -⟩ | ⟨position, same, -⟩⟩ := sound.selector <;> rw [same] <;> rfl
  simp only [List.nil_append] at header type
  simp only [spans, getterSpans, setterSpans, line, List.replicate, lexemesAll, List.flatMap_cons,
    List.flatMap_nil, lexemes, List.cons_append, List.nil_append, header, type, selector, nested]
  rfl

theorem Sound.trees_spans (sound : f.Sound) : TokenTree.ofLexemes (lexemesAll f.spans) = TokenTree.ofLexemes f.headerLexemes
    ++ [.group .brace (accessorTrees f.getter f.setter f.joint (TokenTree.ofLexemes f.typeLexemes) f.nameLexeme)] := by
  have header := TokenTree.push_partnered sound.header.partners
  have type := TokenTree.push_partnered sound.type.partners
  have selector : ∀ forest, TokenTree.Forest.push f.nameLexeme forest = ⟨.leaf f.nameLexeme :: forest.inside, forest.around⟩ := by
    intro forest
    obtain ⟨name, ⟨field, same, -⟩ | ⟨position, same, -⟩⟩ := sound.selector <;> rw [same] <;> rfl
  have ident : ∀ name forest, TokenTree.Forest.push (.ident name) forest = ⟨.leaf (.ident name) :: forest.inside, forest.around⟩ :=
    fun _ _ => rfl
  have punct : ∀ c joint forest, TokenTree.Forest.push (.punct c joint) forest = ⟨.leaf (.punct c joint) :: forest.inside, forest.around⟩ :=
    fun _ _ _ => rfl
  have closing : ∀ d forest, TokenTree.Forest.push (.closing d) forest = ⟨[], forest.inside :: forest.around⟩ := fun _ _ => rfl
  have opening : ∀ d inside after around, TokenTree.Forest.push (.opening d) ⟨inside, after :: around⟩
      = ⟨.group d inside :: after, around⟩ := fun _ _ _ _ => rfl
  rw [TokenTree.ofLexemes]
  simp only [spans, getterSpans, setterSpans, line, List.replicate, lexemesAll, List.flatMap_cons,
    List.flatMap_nil, lexemes, List.cons_append, List.nil_append, List.foldr_append, List.foldr_cons, List.foldr_nil,
    header, type, selector, ident, punct, closing, opening, List.append_nil, accessorTrees, getterHead, setterHead, List.append_assoc]
  rfl
end Frame

/-! Blocks. -/

/-- A part of a generated file: its text, what it is read as, and the item that it is, if it is one. -/
structure Block where
  text : List Char
  lexemes : List Lexeme
  item : Option Item

namespace Block

structure Sound (b : Block) : Prop where
  advances : ∀ back, AdvancesAll (b.text ++ back) b.lexemes back
  partners : nested [] b.lexemes = true
  opens : OpensImpl (TokenTree.ofLexemes b.lexemes)
  answers : ∀ m, levelsFor b.lexemes.length ≤ m → ∀ after,
    Answers (Parsing.nested .item) (rules m) (TokenTree.ofLexemes b.lexemes ++ after) (b.item.map (·, after))

variable {blocks : List Block}

theorem advances_all (sound : ∀ b ∈ blocks, b.Sound) :
    AdvancesAll (blocks.flatMap Block.text) (blocks.flatMap Block.lexemes) [] := by
  induction blocks with
  | nil => exact .nothing []
  | cons b blocks ih =>
      obtain ⟨first, others⟩ := List.forall_mem_cons.mp sound
      rw [List.flatMap_cons, List.flatMap_cons]
      exact (first.advances _).append (ih others)

theorem partners_all (sound : ∀ b ∈ blocks, b.Sound) : nested [] (blocks.flatMap Block.lexemes) = true := by
  induction blocks with
  | nil => rfl
  | cons b blocks ih =>
      obtain ⟨first, others⟩ := List.forall_mem_cons.mp sound
      rw [List.flatMap_cons]
      exact (Lexer.nested_append first.partners [] _).trans (ih others)

theorem trees_all (sound : ∀ b ∈ blocks, b.Sound) :
    TokenTree.ofLexemes (blocks.flatMap Block.lexemes) = blocks.flatMap fun b => TokenTree.ofLexemes b.lexemes := by
  induction blocks with
  | nil => rfl
  | cons b blocks ih =>
      obtain ⟨first, others⟩ := List.forall_mem_cons.mp sound
      rw [List.flatMap_cons, List.flatMap_cons, TokenTree.of_lexemes_append first.partners, ih others]

theorem no_attributes_all (sound : ∀ b ∈ blocks, b.Sound) {r : Parsing.Rules} : Answers Parsing.innerAttributes r
    (blocks.flatMap fun b => TokenTree.ofLexemes b.lexemes) (some (none, blocks.flatMap fun b => TokenTree.ofLexemes b.lexemes)) := by
  cases blocks with
  | nil => exact fun read => ⟨read, rfl⟩
  | cons b blocks =>
      obtain ⟨first, -⟩ := List.forall_mem_cons.mp sound
      exact Parsing.no_inner_attributes (first.opens.append _)

/-- Blocks are read one after the other, and their items are the items of the file. -/
theorem items_of_blocks (sound : ∀ b ∈ blocks, b.Sound) {text : String} {comment : List Char}
    (shape : text.toList = comment ++ blocks.flatMap Block.text) (passed : ∀ back, AdvancesAll (comment ++ back) [] back)
    (known : ∀ c, text.toList.head? = some c → c ≠ Lexer.byteOrderMark) (items : List Item) :
    parse (do let _ ← Parsing.innerAttributes; Parsing.plainList (Parsing.nested .item)) text = .ok items
      ↔ blocks.mapM Block.item = some items := by
  have advances : AdvancesAll text.toList (blocks.flatMap Block.lexemes) [] := by
    rw [shape]
    exact (passed _).append (advances_all sound)
  obtain ⟨tokens, lexed, same⟩ := tokens_of_read advances (partners_all sound) known
  have pieces := Answers.plainList (p := Parsing.nested .item)
    (r := rules (levelsFor (blocks.flatMap Block.lexemes).length)) (blocks.map fun b => (TokenTree.ofLexemes b.lexemes, b.item)) (by
      intro piece listed
      obtain ⟨b, member, rfl⟩ := List.mem_map.mp listed
      have shorter : b.lexemes.length ≤ (blocks.flatMap Block.lexemes).length :=
        (List.sublist_flatten_of_mem (List.mem_map_of_mem member)).length_le
      exact ⟨(sound b member).opens.solid, (sound b member).answers _ (by simp only [levelsFor]; omega)⟩)
  rw [List.flatMap_map, List.mapM_map] at pieces
  rw [Parsing.parse_ok_iff lexed same, trees_all sound]
  exact (Answers.bind (no_attributes_all sound) pieces).ok_iff

end Block

/-! Fields. -/

theorem accessor_free {name : Ident} {verb accessor : String} (listed : verb = "get_" ∨ verb = "set_")
    (same : name.text = verb ++ accessor) : name.text ∉ Parsing.reserved := by
  have table : ∀ verb ∈ ["get_", "set_"], ∀ w ∈ Parsing.reserved, verb.toList.isPrefixOf w.toList = false := by decide
  intro reserved
  have other := table verb (by simpa using listed) _ reserved
  rw [same, String.toList_append] at other
  have starts := List.isPrefixOf_iff_prefix.mpr (List.prefix_append verb.toList accessor.toList)
  rw [starts] at other
  cases other

/-- The implementation with the accessors of a field. -/
def accessorsItem (decl : ImplDecl) (getter setter : Ident) (t : Ty) : Item :=
  .impl { decl with functions := [Parsing.getterOf getter t, Parsing.setterOf setter t] }

theorem Frame.length_spans (f : Frame) : f.headerLexemes.length + f.typeLexemes.length + 3 ≤ (Span.lexemesAll f.spans).length := by
  simp only [Span.lexemesAll, Frame.spans, Frame.getterSpans, Frame.setterSpans, Span.line, List.flatMap_append, List.flatMap_cons,
    List.flatMap_nil, Span.lexemes, List.length_append, List.length_cons, List.length_nil]
  omega

/-- The accessors of a field are a block of their file. -/
theorem Frame.Sound.block {f : Frame} (sound : f.Sound) {decl : ImplDecl} {t : Ty} {name : String} {x : Option Unit}
    (freeGetter : f.getter.text ∉ Parsing.reserved) (freeSetter : f.setter.text ∉ Parsing.reserved)
    (head : IsHead (8 * f.headerLexemes.length + 80) (TokenTree.ofLexemes f.headerLexemes) decl)
    (is : IsType (8 * f.typeLexemes.length + 63) (TokenTree.ofLexemes f.typeLexemes) t) (selector : Selector name f.nameLexeme)
    (readable : x = some () ↔ Selectable name ∧ IsReferred (8 * f.typeLexemes.length + 64) (TokenTree.ofLexemes f.typeLexemes) t) :
    Block.Sound ⟨'\n' :: Span.charsAll f.spans, Span.lexemesAll f.spans, x.map fun _ => accessorsItem decl f.getter f.setter t⟩ where
  advances back := (advances_break _).append (sound.advances back)
  partners := sound.nested_spans
  opens := by
    obtain ⟨read, ran⟩ := head
    rw [sound.trees_spans]
    exact (Parsing.opens_of_implItem ran).behind _
  answers m enough after := by
    have longer := f.length_spans
    simp only [levelsFor] at enough
    obtain ⟨k, rfl⟩ : ∃ k, m = k + 6 := ⟨m - 6, by omega⟩
    have accessors : Answers (Parsing.plainList Parsing.implMember) (rules (k + 5))
        (accessorTrees f.getter f.setter f.joint (TokenTree.ofLexemes f.typeLexemes) f.nameLexeme)
        (x.map fun _ => ([some (Parsing.getterOf f.getter t), some (Parsing.setterOf f.setter t)], [])) :=
      Parsing.accessors_answers freeGetter freeSetter selector is readable (by omega)
    have item := head.answers (by omega) accessors (fun read => ⟨read, rfl⟩) after
    rw [sound.trees_spans, List.append_assoc]
    cases x <;> exact item

/-- The head of the implementations for a name. -/
def Signature.GenericsText.head (text : GenericsText) (name : Ident) : String :=
  "impl" ++ text.implGenerics ++ " " ++ name.text ++ text.typeGenerics ++ text.whereClause

/-- What is written of a struct can be read by itself: the head of its implementations, and the type of each field. -/
structure ResolvedStruct.Legible (s : ResolvedStruct) (name : Ident) (decl : ImplDecl) : Prop where
  head : Closed (s.generics.head name) ∧ parse implItem (s.generics.header name) = .ok decl
  types : ∀ member ∈ s.fields.members, Closed (Signature.ty s.imports member.type)
    ∧ ∃ t, typeText (Signature.ty s.imports member.type) = .ok t

/-- The accessors of a field can be read: the field can be selected by its name, and its type, as it is written, can be
referred to. -/
def Member.Accessible (imports : ImportMap) (member : Member) : Prop :=
  Selectable member.name ∧ ∃ t, typeText (Signature.ty imports member.type) = .ok t
    ∧ typeText ("&" ++ Signature.ty imports member.type) = .ok (.reference none false t)

/-- An item is the implementation with the accessors of a field: a getter that returns a reference to the type of the field
as it is written, and a setter that takes it last. -/
def AccessorsOf (imports : ImportMap) (decl : ImplDecl) (member : Member) (item : Item) : Prop :=
  ∃ t getter setter, typeText (Signature.ty imports member.type) = .ok t ∧ getter.text = "get_" ++ member.accessor
    ∧ setter.text = "set_" ++ member.accessor ∧ item = accessorsItem decl getter setter t

/-- A block is what is written for a field. -/
structure Block.Shows (b : Block) (imports : ImportMap) (decl : ImplDecl) (member : Member) (text : String) : Prop where
  sound : b.Sound
  text : b.text = text.toList
  item : ∀ item, b.item = some item → AccessorsOf imports decl member item
  some : b.item.isSome = true ↔ member.Accessible imports

variable {s : ResolvedStruct} {name : Ident} {decl : ImplDecl}

theorem exists_block (legible : s.Legible name decl) {member : Member} (listed : member ∈ s.fields.members)
    {fill : String → String} (head : fill "impl_generics" = s.generics.implGenerics ∧ fill "struct_name" = name.text
      ∧ fill "type_generics" = s.generics.typeGenerics ∧ fill "where_clause" = s.generics.whereClause)
    (field : fill "accessor_name" = member.accessor ∧ fill "field_type" = Signature.ty s.imports member.type
      ∧ fill "field_name" = member.name) :
    ∃ b : Block, b.Shows s.imports decl member ("\n" ++ Template.BuiltIn.accessorsWith fill) := by
  obtain ⟨closedHead, parsed⟩ := legible.head
  obtain ⟨closed, t, typed⟩ := legible.types member listed
  obtain ⟨headLexemes, headRead, isHead⟩ := head_read closedHead parsed
  obtain ⟨typeLexemes, typeRead, is, refers⟩ := type_read closed typed
  obtain ⟨l, selector⟩ := exists_selector listed
  have continues := accessor_continues listed
  have letters : ("get_".toList = 'g' :: ['e', 't', '_'] ∧ "set_".toList = 's' :: ['e', 't', '_'])
      ∧ Text.isIdentStart 'g' = true ∧ Text.isIdentStart 's' = true := by decide
  have others : ∀ c ∈ ['e', 't', '_'], Text.isIdentContinue c = true := Lexer.each_of_all (by decide)
  obtain ⟨getter, gets⟩ := exists_accessor letters.1.1 letters.2.1 others continues
  obtain ⟨setter, sets⟩ := exists_accessor letters.1.2 letters.2.2 others continues
  classical
  obtain ⟨x, accessible⟩ : ∃ x : Option Unit, x = some () ↔ member.Accessible s.imports :=
    ⟨if member.Accessible s.imports then some () else none, by simp⟩
  let f : Frame := ⟨(s.generics.head name).toList, headLexemes, getter, setter, (Signature.ty s.imports member.type).toList,
    typeLexemes, member.name.toList, l⟩
  have named : l.text = member.name.toList := by
    rcases selector with ⟨field, rfl, same⟩ | ⟨position, rfl, same⟩
    · rw [← same]; rfl
    · rw [← same]; rfl
  have sound : f.Sound := ⟨headRead, typeRead, named, member.name, selector⟩
  have readable : x = some () ↔ Selectable member.name
      ∧ IsReferred (8 * typeLexemes.length + 64) (TokenTree.ofLexemes typeLexemes) t := by
    rw [accessible, Member.Accessible, ← refers, typed]
    simp
  refine ⟨_, sound.block (accessor_free (Or.inl rfl) gets) (accessor_free (Or.inr rfl) sets) isHead is selector readable, ?_, ?_, ?_⟩
  · rw [String.toList_append, Frame.chars_spans (f := f) ?_ ?_ ?_ ?_ ?_]
    · rfl
    · rw [head.1, head.2.1, head.2.2.1, head.2.2.2]; rfl
    · rw [field.1]; exact gets
    · rw [field.1]; exact sets
    · rw [field.2.1]
    · rw [field.2.2]
  · intro item made
    obtain ⟨u, -, rfl⟩ := Option.map_eq_some_iff.mp made
    exact ⟨t, getter, setter, typed, gets, sets, rfl⟩
  · rw [Option.isSome_map, ← accessible]
    cases x <;> simp

/-! The file. -/

variable {imports : ImportMap} {text : Member → String} {members : List Member} {blocks : List Block}

theorem exists_blocks (each : ∀ member ∈ members, ∃ b : Block, b.Shows imports decl member (text member)) :
    ∃ blocks : List Block, List.Forall₂ (fun member b => Block.Shows b imports decl member (text member)) members blocks := by
  induction members with
  | nil => exact ⟨[], .nil⟩
  | cons member members ih =>
      obtain ⟨⟨b, shows⟩, others⟩ := List.forall_mem_cons.mp each
      obtain ⟨blocks, rest⟩ := ih others
      exact ⟨b :: blocks, .cons shows rest⟩

theorem text_of_blocks (shown : List.Forall₂ (fun member b => Block.Shows b imports decl member (text member)) members blocks) :
    (String.join (members.map text)).toList = blocks.flatMap Block.text := by
  rw [String.toList_join]
  induction shown with
  | nil => rfl
  | cons shows _ ih => rw [List.map_cons, List.flatMap_cons, List.flatMap_cons, ih, shows.text]

theorem sound_of_blocks (shown : List.Forall₂ (fun member b => Block.Shows b imports decl member (text member)) members blocks) :
    ∀ b ∈ blocks, b.Sound := by
  induction shown with
  | nil => exact fun b none => absurd none List.not_mem_nil
  | cons shows _ ih => exact List.forall_mem_cons.mpr ⟨shows.sound, ih⟩

theorem items_of_shown (shown : List.Forall₂ (fun member b => Block.Shows b imports decl member (text member)) members blocks) :
    ((blocks.mapM Block.item).isSome = true ↔ ∀ member ∈ members, member.Accessible imports)
      ∧ ∀ items, blocks.mapM Block.item = some items → List.Forall₂ (AccessorsOf imports decl) members items := by
  induction shown with
  | nil => exact ⟨by simp, fun items made => by cases made; exact .nil⟩
  | @cons member b members blocks shows _ ih =>
      obtain ⟨readable, made⟩ := ih
      rw [List.mapM_cons, List.forall_mem_cons, ← readable, ← shows.some]
      cases first : b.item with
      | none => exact ⟨by simp, fun items none => by cases none⟩
      | some item =>
          cases others : blocks.mapM Block.item with
          | none => exact ⟨by simp, fun items none => by cases none⟩
          | some rest =>
              refine ⟨by simp, fun items all => ?_⟩
              cases all
              exact .cons (shows.item item first) (made rest others)

/-- A text that begins as a comment is the body of its file. -/
theorem file_body_of_comment {text : String} {rest : List Char} (shape : text.toList = '/' :: '/' :: rest) :
    Lexer.fileBody text = text := by
  have plain : '/' ≠ Lexer.byteOrderMark := by decide
  have whole : String.ofList ('/' :: '/' :: rest) = text := by rw [← shape, String.ofList_toList]
  simp only [Lexer.fileBody, shape, if_neg plain]
  exact whole

/-- The text of a generated file, with what stands in the places of its templates. -/
theorem generated_text_filled (invocation : Invocation) (name : String) (s : ResolvedStruct) :
    ∃ (header : String → String) (fill : Member → String → String),
      generatedText invocation name s = Template.BuiltIn.headerWith header
        ++ String.join (s.fields.members.map fun member => "\n" ++ Template.BuiltIn.accessorsWith (fill member))
      ∧ (header "package_name" = invocation.packageName ∧ header "source_file" = invocation.sourceFile.text)
      ∧ ∀ member, (fill member "impl_generics" = s.generics.implGenerics ∧ fill member "struct_name" = name
          ∧ fill member "type_generics" = s.generics.typeGenerics ∧ fill member "where_clause" = s.generics.whereClause)
        ∧ fill member "accessor_name" = member.accessor ∧ fill member "field_type" = Signature.ty s.imports member.type
        ∧ fill member "field_name" = member.name :=
  ⟨_, _, rfl, ⟨rfl, rfl⟩, fun _ => ⟨⟨rfl, rfl, rfl, rfl⟩, rfl, rfl, rfl⟩⟩

/-- The generated text is read block by block. -/
theorem exists_file_blocks (legible : s.Legible name decl) {invocation : Invocation}
    (plain : '\n' ∉ invocation.packageName.toList ∧ '\n' ∉ invocation.sourceFile.text.toList) :
    ∃ (text : Member → String) (blocks : List Block),
      List.Forall₂ (fun member b => Block.Shows b s.imports decl member (text member)) s.fields.members blocks
      ∧ ∀ items, fileItems (generatedText invocation name.text s) = .ok items ↔ blocks.mapM Block.item = some items := by
  obtain ⟨header, fill, text, given, filled⟩ := generated_text_filled invocation name.text s
  obtain ⟨blocks, shown⟩ := exists_blocks fun member listed => exists_block legible listed (filled member).1 (filled member).2
  have shape : (generatedText invocation name.text s).toList
      = (Template.BuiltIn.headerWith header).toList ++ blocks.flatMap Block.text := by
    rw [text, String.toList_append, text_of_blocks shown]
  obtain ⟨rest, opens⟩ : ∃ rest, (generatedText invocation name.text s).toList = '/' :: '/' :: rest :=
    ⟨_, shape.trans (header_opens header _)⟩
  have known : ∀ c, (generatedText invocation name.text s).toList.head? = some c → c ≠ Lexer.byteOrderMark := by
    rw [opens]
    rintro c ⟨⟩
    decide
  have plain' : '\n' ∉ (header "package_name").toList ∧ '\n' ∉ (header "source_file").toList := by
    rw [given.1, given.2]
    exact plain
  refine ⟨_, blocks, shown, fun items => ?_⟩
  rw [fileItems, file_body_of_comment opens]
  exact Block.items_of_blocks (sound_of_blocks shown) shape (comment_advances plain') known items

/-- The generated text is read as a file exactly if the accessors of each field can be read, and then its items are the
implementations with them, one for each field, in their order. -/
theorem generated_items_iff (legible : s.Legible name decl) {invocation : Invocation}
    (plain : '\n' ∉ invocation.packageName.toList ∧ '\n' ∉ invocation.sourceFile.text.toList) :
    ((fileItems (generatedText invocation name.text s)).isOk = true ↔ ∀ member ∈ s.fields.members, member.Accessible s.imports)
      ∧ ∀ items, fileItems (generatedText invocation name.text s) = .ok items →
        List.Forall₂ (AccessorsOf s.imports decl) s.fields.members items := by
  obtain ⟨text, blocks, shown, file⟩ := exists_file_blocks legible plain
  obtain ⟨readable, made⟩ := items_of_shown shown
  refine ⟨?_, fun items ran => made items ((file items).mp ran)⟩
  rw [← readable]
  cases ran : fileItems (generatedText invocation name.text s) with
  | ok items => simp [(file items).mp ran, Except.isOk, Except.toBool]
  | error place =>
      cases all : blocks.mapM Block.item with
      | none => simp [Except.isOk, Except.toBool]
      | some items =>
          have read := (file items).mpr all
          rw [ran] at read
          cases read

/-! Structs in a module without imports, whose writing keeps all that they are made of. -/

/-- A text that glyphs write is read in brackets. -/
theorem closed_of_glyphs {glyphs : List Glyph} {text : String} (same : text.toList = Glyph.charsAll glyphs)
    (tidy : Glyph.apart glyphs = true) : Closed text := by
  have bracketed : Glyph.apart [.group .bracket glyphs] = true := by simp [Glyph.apartBefore, tidy]
  obtain ⟨tokens, lexed, -⟩ := Glyph.tokens_of_glyphs bracketed
  have whole : "[" ++ text ++ "]" = String.ofList (Glyph.charsAll [.group .bracket glyphs]) := by
    rw [← String.toList_inj, String.toList_ofList, String.toList_append, String.toList_append, same]
    simp [Glyph.chars, Delimiter.opening, Delimiter.closing]
  rw [Closed, whole, lexed]
  rfl

theorem head_closed {g : Generics} (faithful : g.faithful = true) (name : Ident) :
    Closed ((Signature.generics .empty g).head name) := by
  refine closed_of_glyphs ?_ (g.apart_head name (b := []) rfl rfl)
  have header : ((Signature.generics .empty g).head name ++ " \x7b\x7d").toList = Glyph.charsAll (g.headerGlyphs name) := by
    rw [← String.toList_ofList (l := Glyph.charsAll (g.headerGlyphs name)), ← Signature.header_eq_glyphs faithful name]
    rfl
  rw [String.toList_append] at header
  refine List.append_cancel_right (header.trans ?_)
  simp [Generics.headerGlyphs, Glyph.chars, Delimiter.opening, Delimiter.closing]

/-- What is written of such a struct can be read by itself. -/
theorem ResolvedStruct.Legible.of_faithful {text : String} {own : StructDecl} {m : Module} (parsed : structText text = .ok own)
    (kept : own.generics.erased.faithful = true) (free : name.Free) (alone : m.imports = .empty)
    (types : ∀ member ∈ own.fields.members, member.type.Made true ∧ member.type.faithful = true) (called : String) :
    (ResolvedStruct.ofDecl called m own).Legible name (own.generics.erased.header name) where
  head := by
    rw [ResolvedStruct.ofDecl, alone]
    refine ⟨?_, header_read_erased parsed kept free⟩
    rw [← Signature.generics_erased]
    exact head_closed kept name
  types := by
    intro member listed
    obtain ⟨made, faithful⟩ := types member listed
    have glyphs := Signature.ty_eq_glyphs faithful
    rw [ResolvedStruct.ofDecl, alone]
    exact ⟨closed_of_glyphs (by rw [glyphs, String.toList_ofList]) (apart_ty member.type), _, made.read_back faithful⟩

/-- The accessors of a field of such a type can be read if the grammar has a reference to the type, so if it is no sum. -/
theorem Member.accessible_iff {member : Member} (made : member.type.Made true) (faithful : member.type.faithful = true) :
    member.Accessible .empty ↔ Selectable member.name ∧ (Ty.reference none false member.type).Made true := by
  have read := made.read_back faithful
  have reference : "&" ++ Signature.ty .empty member.type = Signature.ty .empty (.reference none false member.type) := by
    simp [Signature.ty, Signature.parts]
  rw [Member.Accessible, reference]
  refine and_congr_right fun _ => ⟨?_, fun referred => ⟨_, read, referred.read_back faithful⟩⟩
  rintro ⟨t, typed, referred⟩
  rw [read] at typed
  cases typed
  exact Parsing.made_of_typeText referred

namespace ItemsSample

def invocation : Invocation := ⟨⟨"lib.rs"⟩, "app"⟩

def names : List String := ["S", "x", "T", "B", "a"]

theorem names_spelled : ∀ name ∈ names, Spelled name := by decide

def target : Ident := ⟨"S", names_spelled _ (by decide)⟩

def x : Ident := ⟨"x", names_spelled _ (by decide)⟩

def t : Ident := ⟨"T", names_spelled _ (by decide)⟩

def b : Ident := ⟨"B", names_spelled _ (by decide)⟩

def life : Lifetime := ⟨⟨"a", names_spelled _ (by decide)⟩⟩

def type : Ty := .reference (some life) false (.path false [.plain t])

/-- A generic struct with one field, whose type can be referred to. -/
def kept : StructDecl where
  name := target
  generics := ⟨[.lifetime life [], .type t [.trait false false none false [.plain b]]], []⟩
  fields := .named [(x, type)]

def home : Module := ⟨["crate"], ⟨"/lib.rs"⟩, []⟩

/-- A crate of one file. The last field of the struct is of a sum of traits. -/
def tree : File.Tree := ⟨[(["lib.rs".toList], .file (.text "pub struct S { pub f: dyn Send + Sync }"))], []⟩

def layout : CrateLayout := ⟨⟨"/"⟩, "sample", ⟨"/lib.rs"⟩⟩

end ItemsSample

open ItemsSample in
theorem items_of_sample : structText "struct S<'a, T: B> \x7b x: &'a T \x7d" = .ok kept
    ∧ (ResolvedStruct.ofDecl "S" home kept).Legible target (kept.generics.erased.header target)
    ∧ '\n' ∉ invocation.packageName.toList ∧ '\n' ∉ invocation.sourceFile.text.toList
    ∧ ∃ items, fileItems (generatedText invocation target.text (ResolvedStruct.ofDecl "S" home kept)) = .ok items
      ∧ List.Forall₂ (AccessorsOf home.imports (kept.generics.erased.header target)) kept.fields.members items := by
  have parsed : structText "struct S<'a, T: B> \x7b x: &'a T \x7d" = .ok kept := rfl
  have typed : typeText "&'a T" = .ok type := rfl
  have referred : typeText "&&'a T" = .ok (.reference none false type) := rfl
  have made := Parsing.made_of_typeText typed
  have faithful : type.faithful = true := by decide +kernel
  have free : target.Free := by
    unfold Ident.Free
    decide +kernel
  have legible : (ResolvedStruct.ofDecl "S" home kept).Legible target (kept.generics.erased.header target) := by
    refine .of_faithful parsed (by decide +kernel) free rfl (fun member listed => ?_) "S"
    obtain rfl := List.mem_singleton.mp listed
    exact ⟨made, faithful⟩
  have plain : '\n' ∉ invocation.packageName.toList ∧ '\n' ∉ invocation.sourceFile.text.toList := by decide
  obtain ⟨readable, shaped⟩ := generated_items_iff legible plain
  have accessible : Member.Accessible .empty ⟨x.text, unraw x.text, type⟩ :=
    (Member.accessible_iff made faithful).mpr ⟨Or.inr ⟨by decide +kernel,
      fun position same => absurd same (Parsing.no_digits_of_ident x position)⟩, Parsing.made_of_typeText referred⟩
  have read := readable.mpr fun member listed => by
    obtain rfl := List.mem_singleton.mp listed
    exact accessible
  cases ran : fileItems (generatedText invocation target.text (ResolvedStruct.ofDecl "S" home kept)) with
  | ok items => exact ⟨parsed, legible, plain.1, plain.2, items, rfl, shaped items ran⟩
  | error place =>
      rw [ran] at read
      cases read

open ItemsSample in
/-- The type of a field that is a sum of traits is written behind the ampersand without parentheses. -/
theorem items_of_sum_not_read : ∃ m s, m.Loaded tree layout ∧ resolveStruct tree layout m "S" = .ok s
    ∧ s.describeFields = [⟨"f", "dyn Send + Sync"⟩] ∧ (fileItems (generatedText invocation "S" s)).isOk = false := by
  have evaluated : ((Module.loadSegments tree layout ["crate"]).toOption.bind fun m => (resolveStruct tree layout m "S").toOption.map
      fun s => (s.describeFields, s.generics.head target)) = some ([⟨"f", "dyn Send + Sync"⟩], "impl S") := by
    decide +kernel
  obtain ⟨m, loading, told⟩ := Option.bind_eq_some_iff.mp evaluated
  obtain ⟨s, resolving, answer⟩ := Option.map_eq_some_iff.mp told
  obtain ⟨described, head⟩ := Prod.mk.inj answer
  have fields : s.fields.members.map (fun member => (⟨member.name, Signature.ty s.imports member.type⟩ : FieldDescriptor))
      = [⟨"f", "dyn Send + Sync"⟩] := (describe_eq_members s.imports s.fields).symm.trans described
  have each : ∀ member ∈ s.fields.members, Signature.ty s.imports member.type = "dyn Send + Sync" := by
    intro member listed
    have told := List.mem_map_of_mem (f := fun member => (⟨member.name, Signature.ty s.imports member.type⟩ : FieldDescriptor)) listed
    rw [fields] at told
    exact congrArg FieldDescriptor.signature (List.mem_singleton.mp told)
  obtain ⟨t, typed⟩ : ∃ t, typeText "dyn Send + Sync" = .ok t := ⟨_, rfl⟩
  have legible : s.Legible target ((⟨[], []⟩ : Generics).header target) := by
    refine ⟨?_, fun member listed => ?_⟩
    · rw [show s.generics.header target = s.generics.head target ++ " \x7b\x7d" from rfl, head]
      exact ⟨by decide +kernel, rfl⟩
    · rw [each member listed]
      exact ⟨by decide +kernel, t, typed⟩
  have plain : '\n' ∉ invocation.packageName.toList ∧ '\n' ∉ invocation.sourceFile.text.toList := by decide
  obtain ⟨text, blocks, shown, file⟩ := exists_file_blocks legible plain
  have unread : (typeText ("&" ++ "dyn Send + Sync")).isOk = false := by decide +kernel
  refine ⟨m, s, ⟨[], Outcome.to_option_some.mp loading⟩, Outcome.to_option_some.mp resolving, described, ?_⟩
  cases ran : fileItems (generatedText invocation "S" s) with
  | error place => rfl
  | ok items =>
      have all := (items_of_shown shown).1.mp (Option.isSome_of_eq_some ((file items).mp ran))
      have solid : s.fields.members ≠ [] := by
        intro none
        rw [none] at fields
        cases fields
      obtain ⟨member, listed⟩ := List.exists_mem_of_ne_nil _ solid
      obtain ⟨-, other, -, referred⟩ := all member listed
      rw [each member listed] at referred
      rw [referred] at unread
      cases unread

end Accessors
