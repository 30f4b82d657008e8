import Accessors.Proofs.ModulePath
import Accessors.Proofs.PathTexts
import Accessors.Reference
import Mathlib.Data.List.TakeDrop

/-!
References that are written from names: the names of a module with separators between them, a dot, and the name of a
type. The parser takes them apart at the dot, and accepts them if the names of the module may be segments of a path
and the name of the type is no reserved word.
-/

namespace Accessors

open Glyph (trees word charsAll apart)

namespace Text

/-- The characters of white space. -/
def blanks : List Nat :=
  [0x20, 0x85, 0xa0, 0x1680, 0x2028, 0x2029, 0x202f, 0x205f, 0x3000] ++ List.range' 0x09 5 ++ List.range' 0x2000 11

theorem mem_blanks {c : Char} (blank : isBlank c = true) : c.toNat ∈ blanks := by
  simp only [isBlank, Bool.or_eq_true, Bool.and_eq_true, beq_iff_eq, decide_eq_true_eq] at blank
  simp only [blanks, List.mem_append, List.mem_range'_1, List.mem_cons, List.not_mem_nil]
  omega

/-- White space is no part of identifiers. -/
theorem ident_continue_of_blank {c : Char} (blank : isBlank c = true) : isIdentContinue c = false := by
  have table : ∀ n ∈ blanks, isIdentContinue (Char.ofNat n) = false := by decide +kernel
  have closed := table c.toNat (mem_blanks blank)
  rwa [Char.ofNat_toNat] at closed

/-- A text without white space is not trimmed. -/
theorem trim_of_solid {text : String} (solid : ∀ c ∈ text.toList, isBlank c = false) : trim text = text := by
  have front : text.toList.dropWhile isBlank = text.toList := by
    cases chars : text.toList with
    | nil => rfl
    | cons c rest => simp [solid c (by rw [chars]; exact List.mem_cons_self)]
  have back : text.toList.reverse.dropWhile isBlank = text.toList.reverse := by
    cases chars : text.toList.reverse with
    | nil => rfl
    | cons c rest =>
        have member : c ∈ text.toList := List.mem_reverse.mp (by rw [chars]; exact List.mem_cons_self)
        simp [solid c member]
  rw [trim, trimChars, trimEndChars, front, back, List.reverse_reverse, String.ofList_toList]

/-- A text is taken apart at a separator behind which there is no other. -/
theorem splitAtLast?_append {separator : Char} (before : List Char) {after : List Char} (plain : separator ∉ after) :
    splitAtLast? separator (before ++ separator :: after) = some (before, after) := by
  have others : ∀ c ∈ after.reverse, (c != separator) = true := by
    intro c member
    have differs : c ≠ separator := fun same => plain (by rw [← same]; exact List.mem_reverse.mp member)
    simpa using differs
  have shape : (before ++ separator :: after).reverse = after.reverse ++ separator :: before.reverse := by simp
  have stops : (separator != separator) = false := by simp
  unfold splitAtLast?
  rw [shape, List.span_eq_takeWhile_dropWhile, List.takeWhile_append_of_pos others, List.dropWhile_append_of_pos others,
    List.takeWhile_cons_of_neg (by simp), List.dropWhile_cons_of_neg (by simp)]
  simp

end Text

/-! References. -/

namespace Ident

/-- Only separators stand in a path besides its names. -/
theorem path_chars (names : List Ident) :
    ∀ c ∈ (path names).toList, c = ':' ∨ c = '#' ∨ Text.isIdentContinue c = true := by
  induction names with
  | nil => simp [path, Text.join]
  | cons name more ih =>
      rcases more with _ | ⟨next, rest⟩
      · intro c member
        exact Or.inr (name.chars c (by simpa [path, Text.join] using member))
      · intro c member
        rw [path, List.map_cons, Text.join_cons_to_list _ _ (by simp)] at member
        rcases List.mem_append.mp member with own | after
        · exact Or.inr (name.chars c own)
        · rcases List.mem_append.mp after with colon | later
          · exact Or.inl (by simpa using colon)
          · exact ih c later

theorem path_ne_nil {names : List Ident} (some : names ≠ []) : (path names).toList ≠ [] := by
  obtain ⟨name, more, rfl⟩ := List.exists_cons_of_ne_nil some
  rcases more with _ | ⟨next, rest⟩
  · simpa [path, Text.join] using name.whole.1
  · rw [path, List.map_cons, Text.join_cons_to_list _ _ (by simp)]
    simp [name.whole.1]

end Ident

theorem ident_text_iff {name : Ident} : Parsing.isIdentText name.text = true ↔ name.Free := by
  have glyphs : name.text = String.ofList (charsAll [word name]) := by simp [Glyph.chars]
  have tidy : apart [word name] = true := rfl
  unfold Parsing.isIdentText
  rw [glyphs]
  constructor
  · intro accepted
    cases read : Parsing.parse Parsing.takeIdent (String.ofList (charsAll [word name])) with
    | error place =>
        rw [read] at accepted
        cases accepted
    | ok found =>
        obtain ⟨n, c', ran⟩ := Parsing.run_of_parse_glyphs tidy read
        exact (Parsing.yields_free (c := .start (trees [word name])) rfl found c' ran).2.1
  · intro free
    have read := Parsing.parse_of_reads tidy fun n _ => Parsing.Reads.ident (r := Parsing.rules n) free []
    rw [read]
    rfl

namespace TypeReference

theorem of_trimmed_ok {raw : String} {r : TypeReference} : ofTrimmed raw = .ok r
    ↔ ∃ path name, Text.splitAtLast? '.' raw.toList = some (path, name) ∧ path ≠ [] ∧ name ≠ []
        ∧ Parsing.isIdentText (String.ofList name) = true ∧ (Parsing.pathText (String.ofList path)).isOk = true
        ∧ r = ⟨String.ofList path, String.ofList name⟩ := by
  unfold ofTrimmed
  cases Text.splitAtLast? '.' raw.toList with
  | none => simp
  | some parts =>
      obtain ⟨path, name⟩ := parts
      by_cases noPath : path = []
      · simp [noPath]
      by_cases noName : name = []
      · simp [noPath, noName]
      cases ident : Parsing.isIdentText (String.ofList name) with
      | false => simp [noPath, noName, ident]
      | true =>
          cases read : (Parsing.pathText (String.ofList path)).isOk with
          | false => simp [noPath, noName, ident, read]
          | true =>
              simp only [noPath, noName, ident, read, if_false, Bool.not_true, Bool.false_eq_true]
              constructor
              · intro made
                exact ⟨path, name, rfl, noPath, noName, ident, read, (Except.ok.inj made).symm⟩
              · rintro ⟨_, _, same, _, _, _, _, rfl⟩
                cases same
                rfl

/-- The module path of a reference is a path. -/
theorem path_of_parse {text : String} {r : TypeReference} (parses : parse text = .ok r) :
    ∃ read, Parsing.pathText r.modulePath = .ok read := by
  unfold parse at parses
  have made := Outcome.map_error_ok.mp parses
  obtain ⟨path, name, _, _, _, _, sound, shape⟩ := of_trimmed_ok.mp made
  rw [shape]
  cases read : Parsing.pathText (String.ofList path) with
  | ok parsed => exact ⟨parsed, rfl⟩
  | error place =>
      rw [read] at sound
      cases sound

/-- What a reference that is written from names is written in. -/
theorem written_chars (names : List Ident) (name : Ident) :
    ∀ c ∈ (Ident.path names ++ "." ++ name.text).toList, c ∈ ['.', ':', '#'] ∨ Text.isIdentContinue c = true := by
  intro c member
  simp only [String.toList_append, List.mem_append] at member
  rcases member with (inPath | dot) | inName
  · rcases Ident.path_chars names c inPath with rfl | rfl | continues
    · simp
    · simp
    · exact Or.inr continues
  · obtain rfl : c = '.' := by simpa using dot
    simp
  · rcases name.chars c inName with rfl | continues
    · simp
    · exact Or.inr continues

/-- A reference that is written from names is accepted just if the names of the module may be segments and the name of
the type is free, and then it is taken apart into the two. -/
theorem parse_written_iff {names : List Ident} {name : Ident} (some : names ≠ []) {r : TypeReference} :
    parse (Ident.path names ++ "." ++ name.text) = .ok r
      ↔ (∀ n ∈ names, n.Names) ∧ name.Free ∧ r = ⟨Ident.path names, name.text⟩ := by
  have solid : ∀ c ∈ (Ident.path names ++ "." ++ name.text).toList, Text.isBlank c = false := by
    intro c member
    rcases written_chars names name c member with mark | continues
    · simp only [List.mem_cons, List.not_mem_nil, or_false] at mark
      rcases mark with rfl | rfl | rfl <;> rfl
    · rw [Bool.eq_false_iff]
      exact fun blank => absurd continues (by simp [Text.ident_continue_of_blank blank])
  have cut : Text.splitAtLast? '.' (Ident.path names ++ "." ++ name.text).toList
      = .some ((Ident.path names).toList, name.text.toList) := by
    have shape : (Ident.path names ++ "." ++ name.text).toList = (Ident.path names).toList ++ '.' :: name.text.toList := by
      simp
    rw [shape]
    exact Text.splitAtLast?_append _ (name.lacks (by decide) (by decide))
  unfold parse
  rw [Text.trim_of_solid solid, Outcome.map_error_ok, of_trimmed_ok, cut]
  constructor
  · rintro ⟨before, after, parts, _, _, free, read, rfl⟩
    obtain ⟨rfl, rfl⟩ := Prod.mk.inj (Option.some.inj parts)
    rw [String.ofList_toList] at free read
    rw [String.ofList_toList, String.ofList_toList]
    cases parsed : Parsing.pathText (Ident.path names) with
    | error place =>
        rw [parsed] at read
        cases read
    | ok found => exact ⟨(Parsing.names_of_path_text some parsed).2, ident_text_iff.mp free, rfl⟩
  · rintro ⟨each, free, rfl⟩
    refine ⟨_, _, rfl, Ident.path_ne_nil some, name.whole.1, ?_, ?_, ?_⟩
    · rw [String.ofList_toList]
      exact ident_text_iff.mpr free
    · rw [String.ofList_toList, Parsing.path_text_of_names some each]
      rfl
    · rw [String.ofList_toList, String.ofList_toList]

end TypeReference

end Accessors
