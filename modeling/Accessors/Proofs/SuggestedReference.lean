import Accessors.Proofs.AliasChain
import Accessors.Proofs.ItemNames
import Accessors.Proofs.LexedLeaves
import Accessors.Proofs.ModuleSpelling
import Mathlib.Data.Set.List

/-!
The reference that is suggested for an alias of a struct in another module. It is put together from the path of that
module and the name of the struct. The names of modules stand in the path without their raw marks, so where the mark is
needed the suggestion is no reference; where it is not, the suggestion gives the struct.
-/

namespace Accessors

/-- A word that may be a segment of a path as it stands. -/
def PathWord (word : String) : Prop :=
  word ∉ Parsing.reserved ∨ word ∈ ["super", "self", "Self", "crate", "try"]

instance (word : String) : Decidable (PathWord word) := inferInstanceAs (Decidable (_ ∨ _))

/-- What a reference gives in a crate. -/
def Gives (t : File.Tree) (layout : CrateLayout) (reference : String) (s : ResolvedStruct) : Prop :=
  ∃ r m, TypeReference.parse reference = .ok r ∧ Module.load t layout r.modulePath = .ok m
    ∧ resolveStruct t layout m r.typeName = .ok s

/-! The text that is suggested. -/

/-- The mark that names stand between in messages. -/
def quoteMark : Char := Char.ofNat 0x60

/-- Of the pieces of a text between such marks, the one behind the first that ends in a given text. -/
def pieceBehind? (front : List Char) : List (List Char) → Option (List Char)
  | piece :: quoted :: rest => if front.isSuffixOf piece then some quoted else pieceBehind? front (quoted :: rest)
  | _ => none

/-- What a message says to request. -/
def requestIn? (message : String) : Option String :=
  (pieceBehind? "request ".toList (Text.splitAt quoteMark message.toList)).map String.ofList

/-- A name and a reference that stand between such marks, and the pieces around them. -/
theorem join_of_quoted {opening behind before closing : String} {first inner last after : List Char}
    (opens : opening.toList = first ++ [quoteMark]) (goesOn : behind.toList = quoteMark :: inner)
    (again : before.toList = last ++ [quoteMark]) (closes : closing.toList = quoteMark :: after)
    (name path dot own : String) :
    (opening ++ name ++ behind ++ (before ++ path ++ dot ++ own ++ closing)).toList
      = Text.joinWith [quoteMark] [first, name.toList, inner ++ last, (path ++ dot ++ own).toList, after] := by
  simp [opens, goesOn, again, closes, Text.joinWith]

/-- What the message for a struct in another module says between the names. -/
def elsewhereText : List Char :=
  " cannot be given accessors: ".toList ++ "it names a struct in another module; request ".toList

/-- The pieces of that message. -/
def elsewherePieces (name reference : String) : List (List Char) :=
  ["type alias ".toList, name.toList, elsewhereText, reference.toList, " instead".toList]

theorem message_of_elsewhere (name path own : String) :
    (ResolutionError.message (.unsupportedAlias name (.elsewhere path own))).toList
      = Text.joinWith [quoteMark] (elsewherePieces name (path ++ "." ++ own)) := by
  have opens : "type alias `".toList = "type alias ".toList ++ [quoteMark] := by decide
  have goesOn : "` cannot be given accessors: ".toList = quoteMark :: " cannot be given accessors: ".toList := by
    decide
  have again : "it names a struct in another module; request `".toList
      = "it names a struct in another module; request ".toList ++ [quoteMark] := by
    decide
  have closes : "` instead".toList = quoteMark :: " instead".toList := by decide
  exact join_of_quoted opens goesOn again closes name path "." own

/-- The message says to request the path with the name, if these and the name before them hold no marks. -/
theorem request_of_elsewhere {name path own : String} (plainName : ∀ c ∈ name.toList, c ≠ quoteMark ∧ c ≠ ' ')
    (plainReference : ∀ c ∈ (path ++ "." ++ own).toList, c ≠ quoteMark) :
    requestIn? (ResolutionError.message (.unsupportedAlias name (.elsewhere path own)))
      = some (path ++ "." ++ own) := by
  have some : elsewherePieces name (path ++ "." ++ own) ≠ [] := List.cons_ne_nil _ _
  have plain : ∀ piece ∈ elsewherePieces name (path ++ "." ++ own), quoteMark ∉ piece := by
    intro piece member
    simp only [elsewherePieces, List.mem_cons, List.not_mem_nil, or_false] at member
    rcases member with rfl | rfl | rfl | rfl | rfl
    · decide
    · exact fun listed => (plainName quoteMark listed).1 rfl
    · decide
    · exact fun listed => plainReference quoteMark listed rfl
    · decide
  have other : "request ".toList.isSuffixOf name.toList = false := by
    rw [Bool.eq_false_iff]
    intro ends
    have blank := (List.isSuffixOf_iff_suffix.mp ends).mem (a := ' ') (by decide)
    exact (plainName ' ' blank).2 rfl
  have first : "request ".toList.isSuffixOf "type alias ".toList = false := by decide
  have last : "request ".toList.isSuffixOf elsewhereText = true := by decide
  rw [requestIn?, message_of_elsewhere, Text.splitAt_joinWith some plain]
  simp only [elsewherePieces, pieceBehind?, first, other, last, if_true, Bool.false_eq_true, if_false, Option.map_some,
    String.ofList_toList]

theorem unraw_of_plain {text : String} (plain : ∀ rest, text.toList ≠ 'r' :: '#' :: rest) : unraw text = text := by
  unfold unraw
  split
  · next rest cut => exact absurd (Text.append_of_cutStart? cut) (plain rest)
  · rfl

namespace Ident

/-- Without the mark of a raw identifier a name is still a whole one, and there is no mark left. -/
theorem unraw_shape (name : Ident) :
    Literal.identLength (unraw name.text).toList = (unraw name.text).toList.length ∧ (unraw name.text).toList ≠ []
      ∧ ∀ rest, (unraw name.text).toList ≠ 'r' :: '#' :: rest := by
  rcases Lexer.word_shape name with ⟨whole, plain⟩ | ⟨inner, shape, whole, some, _⟩
  · rw [unraw_of_plain plain]
    exact ⟨whole, name.whole.1, plain⟩
  · have text : name.text = String.ofList (rawMark ++ inner) := by
      rw [← String.toList_inj, shape, String.toList_ofList]
      rfl
    rw [text, unraw_raw, String.toList_ofList]
    refine ⟨whole, some, fun rest again => ?_⟩
    have mark := Literal.plain_ident_chars whole '#' (by rw [again]; simp)
    exact absurd mark (by decide)

/-- A name without the mark of a raw identifier. -/
def bare (name : Ident) : Ident where
  text := unraw name.text
  whole := by
    obtain ⟨whole, some, plain⟩ := name.unraw_shape
    rw [Lexer.ident_length_plain plain]
    exact ⟨some, whole⟩

theorem unraw_bare (name : Ident) : unraw name.bare.text = name.bare.text := unraw_of_plain name.unraw_shape.2.2

theorem names_iff {name : Ident} : name.Names ↔ PathWord name.text := by
  unfold Names Heads Free PathWord
  simp only [List.mem_cons, List.not_mem_nil, or_false]
  tauto

end Ident

/-! The module and the struct that are reached. -/

section

variable {t : File.Tree} {layout : CrateLayout} {m found : Module}

/-- The path of a loaded module is written from names without marks. -/
theorem Module.Loaded.words (loaded : m.Loaded t layout) :
    ∃ (crate : Ident) (names : List Ident), crate.text = "crate" ∧ m.segments = "crate" :: names.map Ident.text
      ∧ m.path = Ident.path (crate :: names) ∧ ∀ name ∈ names, unraw name.text = name.text := by
  obtain ⟨rest, reached⟩ := loaded
  obtain ⟨_, _, _, walked, _⟩ := load_segments_ok.mp reached
  have each : ∀ segment ∈ rest, ∃ name : Ident, unraw name.text = segment := by
    intro segment member
    obtain ⟨_, _, step⟩ := Outcome.fold_ok_round walked segment member
    exact name_of_descend step
  obtain ⟨names, rfl⟩ : ∃ names : List Ident, names.map (fun name => unraw name.text) = rest :=
    (Set.range_list_map _).ge each
  have segments : m.segments = "crate" :: (names.map Ident.bare).map Ident.text := by
    rw [segments_of_load_segments reached, List.map_map]
    rfl
  refine ⟨⟨"crate", by decide +kernel⟩, names.map Ident.bare, rfl, segments, ?_, ?_⟩
  · rw [path, segments]
    rfl
  · exact List.forall_mem_map.mpr fun name _ => name.unraw_bare

/-- A struct is found under the name of its declaration, too. -/
theorem Module.Finds.by_own_name {name : String} {decl : StructDecl} (finds : m.Finds name (.struct decl)) :
    m.Finds decl.name.text (.struct decl) := by
  obtain ⟨symbol, lookup, shape⟩ := finds
  obtain ⟨member, named⟩ := Symbol.find_some lookup
  obtain ⟨own, declared, written⟩ := Symbol.mem_of_items member
  rw [shape] at declared
  obtain ⟨rfl, _⟩ := Prod.mk.inj (Option.some.inj declared)
  refine ⟨symbol, ?_, shape⟩
  rw [← lookup, Symbol.find?, Symbol.find?, ← named, written]

/-! Where a struct is declared is no matter of the walk that comes to it. -/

section

variable {requested name path own : String}

theorem follow_target_not_elsewhere {target : Ty} :
    followTarget t layout requested m target ≠ .error (.unsupportedAlias name (.elsewhere path own)) := by
  unfold followTarget
  split
  · simp
  · next segments _ _ =>
      cases loading : Module.loadSegments t layout segments with
      | ok reached => simp [bind, Except.bind, pure, Except.pure]
      | error fault =>
          obtain ⟨cause, _, rfl⟩ := Outcome.map_error_error.mp loading
          simp [bind, Except.bind]
  · simp

namespace AliasWalk

variable {w : AliasWalk}

theorem round_not_elsewhere :
    w.round t layout requested ≠ .error (.unsupportedAlias name (.elsewhere path own)) := by
  unfold round
  split
  · simp
  · cases followed : followTarget t layout requested w.module w.target with
    | error fault => exact fun same => follow_target_not_elsewhere (followed.trans (congrArg _ (Except.error.inj same)))
    | ok place =>
        simp only
        split
        · simp
        · unfold meet
          split
          · simp
          · split
            · split <;> simp
            · split <;> simp
            · simp

theorem follow_not_elsewhere :
    w.follow t layout requested ≠ .error (.unsupportedAlias name (.elsewhere path own)) := by
  fun_induction follow t layout requested w with
  | case1 w fault failed => exact fun same => round_not_elsewhere (failed.trans (congrArg _ (Except.error.inj same)))
  | case2 => simp
  | case3 w next onward ih => exact ih

end AliasWalk

end

/-- A name is refused for the place of its struct if it is an alias of a struct in another module. -/
theorem elsewhere_of_resolve {name requested path own : String}
    (fails : resolveStruct t layout m name = .error (.unsupportedAlias requested (.elsewhere path own))) :
    requested = name ∧ ∃ decl found struct, m.Finds name (.typeAlias decl)
      ∧ (AliasWalk.start m name decl.target).follow t layout name = .ok (found, struct) ∧ found.path ≠ m.path
      ∧ path = found.path ∧ own = struct.name.text := by
  unfold resolveStruct at fails
  split at fails
  · cases fails
  · next symbol lookup =>
      split at fails
      · cases fails
      · split at fails
        · cases fails
        · next decl item =>
            cases followed : (AliasWalk.start m name decl.target).follow t layout name with
            | error fault =>
                rw [followed] at fails
                exact absurd (followed.trans (congrArg _ (Except.error.inj fails))) AliasWalk.follow_not_elsewhere
            | ok reached =>
                obtain ⟨found, struct⟩ := reached
                rw [followed] at fails
                simp only [bind, Except.bind] at fails
                split at fails
                · next elsewhere =>
                    cases fails
                    exact ⟨rfl, decl, found, struct, ⟨symbol, lookup, item⟩, followed, elsewhere, rfl, rfl⟩
                · cases fails
        · cases fails

/-- A reference to a struct of a loaded module gives the struct if the parser accepts it, which depends on the names of
the modules alone. -/
theorem gives_of_loaded {decl : StructDecl} {called : String} (loaded : found.Loaded t layout)
    (finds : found.Finds called (.struct decl)) :
    (Gives t layout (found.path ++ "." ++ decl.name.text) (.ofDecl decl.name.text found decl)
        ↔ ∀ word ∈ found.segments, PathWord word)
      ∧ ((∃ r, TypeReference.parse (found.path ++ "." ++ decl.name.text) = .ok r)
        ↔ ∀ word ∈ found.segments, PathWord word) := by
  obtain ⟨crate, names, root, segments, written, bare⟩ := loaded.words
  have words : (∀ word ∈ found.segments, PathWord word) ↔ ∀ name ∈ crate :: names, name.Names := by
    rw [segments, ← root, ← List.map_cons, List.forall_mem_map]
    simp only [Ident.names_iff]
  have parsed {r : TypeReference} := @TypeReference.parse_written_iff _ decl.name (List.cons_ne_nil crate names) r
  have free := finds.free loaded
  rw [written, words]
  have accepted : (∃ r, TypeReference.parse (Ident.path (crate :: names) ++ "." ++ decl.name.text) = .ok r)
      ↔ ∀ name ∈ crate :: names, name.Names := by
    constructor
    · rintro ⟨r, accepts⟩
      exact (parsed.mp accepts).1
    · intro each
      exact ⟨_, parsed.mpr ⟨each, free, rfl⟩⟩
  refine ⟨⟨?_, fun each => ?_⟩, accepted⟩
  · rintro ⟨r, _, accepts, _⟩
    exact accepted.mp ⟨r, accepts⟩
  have read := Parsing.path_text_of_names (List.cons_ne_nil crate names) each
  have below : names.map (fun name => unraw name.text) = names.map Ident.text := List.map_congr_left bare
  have load : Module.load t layout (Ident.path (crate :: names)) = .ok found := by
    rw [Module.load, normalize_from_crate (Or.inl (by rw [root]; rfl)) read, below, ← segments]
    exact loaded.again.2.2
  exact ⟨_, found, parsed.mpr ⟨each, free, rfl⟩, load, resolve_struct finds.by_own_name⟩

/-- Where a name is refused because the struct at the end of its chain stands in another module, the message suggests
the path of that module with the name of the struct. That is accepted, and gives the struct, exactly when no name of a
module on the path is a word that may not stand there without its raw mark. -/
theorem suggestion_gives_iff {name requested path own : String} (loaded : m.Loaded t layout)
    (fails : resolveStruct t layout m name = .error (.unsupportedAlias requested (.elsewhere path own))) :
    ∃ aliased steps found decl reference, m.Finds name (.typeAlias aliased)
      ∧ AliasChain t layout steps m aliased.target found decl ∧ found.path ≠ m.path
      ∧ requestIn? (ResolutionError.message (.unsupportedAlias requested (.elsewhere path own))) = some reference
      ∧ reference = found.path ++ "." ++ decl.name.text
      ∧ (Gives t layout reference (.ofDecl decl.name.text found decl) ↔ ∀ word ∈ found.segments, PathWord word)
      ∧ ((∃ r, TypeReference.parse reference = .ok r) ↔ ∀ word ∈ found.segments, PathWord word) := by
  obtain ⟨rfl, aliased, found, decl, finds, followed, elsewhere, rfl, rfl⟩ := elsewhere_of_resolve fails
  obtain ⟨steps, _, chain⟩ := AliasWalk.chain_of_follow followed
  obtain ⟨reached, _, declared⟩ := chain.finish loaded
  have plainName : ∀ c ∈ requested.toList, c ≠ quoteMark ∧ c ≠ ' ' := by
    intro c member
    rcases finds.chars c member with rfl | continues
    · decide
    · constructor <;> (rintro rfl; exact absurd continues (by decide))
  have plainReference : ∀ c ∈ (found.path ++ "." ++ decl.name.text).toList, c ≠ quoteMark := by
    obtain ⟨_, _, _, _, written, _⟩ := reached.words
    rintro c member rfl
    rw [written] at member
    rcases TypeReference.written_chars _ _ _ member with mark | continues
    · exact absurd mark (by decide)
    · exact absurd continues (by decide)
  obtain ⟨gives, accepted⟩ := gives_of_loaded reached declared
  exact ⟨aliased, steps, found, decl, _, finds, chain, elsewhere, request_of_elsewhere plainName plainReference, rfl,
    gives, accepted⟩

end

example : PathWord "models" ∧ PathWord "try" ∧ ¬ PathWord "type" := by decide

namespace SuggestionSample

/-- A crate of one file, with a module and an alias of the struct in it. -/
def tree (outer : Ident) : File.Tree where
  entries := [(["lib.rs".toList], .file (.text
    ("mod " ++ outer.text ++ " \x7b struct Post; \x7d type Near = self::" ++ outer.text ++ "::Post;")))]
  cwd := []

def layout : CrateLayout := ⟨⟨"/"⟩, "sample", ⟨"/lib.rs"⟩⟩

def struct : StructDecl := ⟨⟨"Post", by decide +kernel⟩, ⟨[], []⟩, .unit⟩

def plain : Ident := ⟨"m", by decide +kernel⟩

/-- A reserved word with its mark. -/
def marked : Ident := SpellingSample.outer

def near (outer : Ident) : AliasDecl :=
  ⟨⟨"Near", by decide +kernel⟩, [], .path false [.plain ⟨"self", by decide +kernel⟩, .plain outer, .plain struct.name]⟩

def entry (outer : Ident) : Module :=
  ⟨["crate"], ⟨"/lib.rs"⟩, [.module outer none (some [.struct struct]), .typeAlias (near outer)]⟩

/-- The module below the entry. -/
def inner (name : String) : Module := ⟨["crate", name], ⟨"/lib.rs"⟩, [.struct struct]⟩

/-- The items of the file are all that has to be read of the crate. -/
def Reads (outer : Ident) : Prop := itemsOf (tree outer) layout.entry = .ok (entry outer).items

section

variable {outer : Ident}

theorem start_of_reads (reads : Reads outer) :
    Walk.start (tree outer) layout.entry = .ok ⟨layout.entry, (entry outer).items, ⟨"/"⟩, ⟨"/"⟩⟩ := by
  rw [Walk.start, reads]
  rfl

theorem entry_loaded (reads : Reads outer) : Module.loadSegments (tree outer) layout ["crate"] = .ok (entry outer) :=
  Module.load_segments_ok.mpr ⟨_, _, start_of_reads reads, rfl, rfl⟩

theorem leads (reads : Reads outer) :
    (entry outer).Leads (tree outer) layout (near outer).target (inner (unraw outer.text)) "Post" := by
  let dir : File.Path := File.Path.join ⟨"/"⟩ ⟨unraw outer.text⟩
  have step : Walk.descend (tree outer) ⟨layout.entry, (entry outer).items, ⟨"/"⟩, ⟨"/"⟩⟩ (unraw outer.text)
      = .ok ⟨layout.entry, [.struct struct], dir, dir⟩ := by
    simp [Walk.descend, entry, moduleDeclared, dir]
  have below : Module.loadSegments (tree outer) layout ["crate", unraw outer.text] = .ok (inner (unraw outer.text)) :=
    Module.load_segments_ok.mpr ⟨_, _, start_of_reads reads, Outcome.bind_ok.mpr ⟨_, step, rfl⟩, rfl⟩
  exact ⟨below, rfl⟩

end

theorem reads_plain : Reads plain := by rfl

theorem reads_marked : Reads marked := by rfl

theorem fails_at_plain :
    resolveStruct (tree plain) layout (entry plain) "Near"
      = .error (.unsupportedAlias "Near" (.elsewhere "crate::m" "Post")) := by
  have arrived : (AliasWalk.start (entry plain) "Near" (near plain).target).round (tree plain) layout "Near"
      = .ok (.arrived (inner "m") struct) :=
    AliasWalk.round_ok.mpr ⟨by decide, _, _, leads reads_plain, by decide,
      AliasWalk.meet_arrived.mpr ⟨⟨_, rfl, rfl⟩, rfl, rfl⟩⟩
  rw [resolve_alias ⟨_, rfl, rfl⟩, AliasWalk.follow_of_arrived arrived]
  rfl

theorem fails_at_marked :
    resolveStruct (tree marked) layout (entry marked) "Near"
      = .error (.unsupportedAlias "Near" (.elsewhere "crate::type" "Post")) := by
  have arrived : (AliasWalk.start (entry marked) "Near" (near marked).target).round (tree marked) layout "Near"
      = .ok (.arrived (inner "type") struct) :=
    AliasWalk.round_ok.mpr ⟨by decide, _, _, leads reads_marked, by decide,
      AliasWalk.meet_arrived.mpr ⟨⟨_, rfl, rfl⟩, rfl, rfl⟩⟩
  rw [resolve_alias ⟨_, rfl, rfl⟩, AliasWalk.follow_of_arrived arrived]
  rfl

end SuggestionSample

open SuggestionSample in
theorem suggestion_of_sample_gives : Module.loadSegments (tree plain) layout ["crate"] = .ok (entry plain)
    ∧ resolveStruct (tree plain) layout (entry plain) "Near"
      = .error (.unsupportedAlias "Near" (.elsewhere "crate::m" "Post"))
    ∧ requestIn? (ResolutionError.message (.unsupportedAlias "Near" (.elsewhere "crate::m" "Post")))
      = some "crate::m.Post"
    ∧ ∃ found decl, "crate::m.Post" = found.path ++ "." ++ decl.name.text
      ∧ Gives (tree plain) layout "crate::m.Post" (.ofDecl decl.name.text found decl) := by
  obtain ⟨_, _, found, decl, _, _, _, _, asked, shape, gives, accepted⟩ :=
    suggestion_gives_iff ⟨[], entry_loaded reads_plain⟩ fails_at_plain
  have read : requestIn? (ResolutionError.message (.unsupportedAlias "Near" (.elsewhere "crate::m" "Post")))
      = some "crate::m.Post" := by
    decide +kernel
  obtain rfl := Option.some.inj (asked.symm.trans read)
  have parsed : TypeReference.parse "crate::m.Post" = .ok ⟨"crate::m", "Post"⟩ :=
    Outcome.to_option_some.mp (by decide +kernel)
  exact ⟨entry_loaded reads_plain, fails_at_plain, read, found, decl, shape, gives.mpr (accepted.mp ⟨_, parsed⟩)⟩

open SuggestionSample in
/-- A module with a reserved word for its name is named without the mark it needs. -/
theorem suggestion_of_marked_refused : Module.loadSegments (tree marked) layout ["crate"] = .ok (entry marked)
    ∧ resolveStruct (tree marked) layout (entry marked) "Near"
      = .error (.unsupportedAlias "Near" (.elsewhere "crate::type" "Post"))
    ∧ requestIn? (ResolutionError.message (.unsupportedAlias "Near" (.elsewhere "crate::type" "Post")))
      = some "crate::type.Post"
    ∧ TypeReference.parse "crate::type.Post" = .error ⟨"crate::type.Post", .badModule "crate::type"⟩ :=
  ⟨entry_loaded reads_marked, fails_at_marked, by decide +kernel, by decide +kernel⟩

end Accessors
