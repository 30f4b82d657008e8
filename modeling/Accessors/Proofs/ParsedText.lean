import Accessors.Parsing.Source
import Accessors.Proofs.Yielding

/-!
Whole texts. A text that glyphs write is read as its parser reads the glyphs, and what a text is read as is
something that its parser yields.
-/

namespace Accessors.Parsing

open Glyph (trees weightAll apart charsAll)

variable {α : Type} {p : Parser α} {a : α}

/-- The levels of the rules are enough for so many tokens. -/
theorem le_levelsFor (tokens : Nat) : tokens ≤ levelsFor tokens := by
  simp only [levelsFor]
  omega

theorem parse_of_reads {gs : List Glyph} (tidy : apart gs = true)
    (reads : ∀ n, weightAll gs ≤ n → Reads p (rules n) gs a []) :
    parse p (String.ofList (charsAll gs)) = .ok a := by
  obtain ⟨tokens, lexed, grouped, size⟩ := Glyph.tokens_of_glyphs tidy
  obtain ⟨read, ran⟩ := reads (levelsFor tokens.length) (by rw [← size]; exact le_levelsFor _) none []
  have start : whole p (rules (levelsFor tokens.length)) (trees gs) = some (.ok a) := by
    rw [whole, Cursor.start, ran]
    rfl
  rw [parse, lexed]
  change parseTokens p tokens = .ok a
  rw [parseTokens, grouped, start]

/-- What is parsed from tokens is read up to their end, and nothing is passed over. -/
theorem parse_tokens_ok_iff {tokens : List Token} : parseTokens p tokens = .ok a
    ↔ ∃ read, p.run (rules (levelsFor tokens.length)) (.start (TokenTree.ofLexemes (tokens.map (·.lexeme))))
      = some (.ok (a, ⟨[], none, read⟩)) := by
  simp only [parseTokens, whole]
  cases ran : p.run (rules (levelsFor tokens.length)) (.start (TokenTree.ofLexemes (tokens.map (·.lexeme)))) with
  | none => simp
  | some answer =>
      match answer with
      | .error place => simp
      | .ok (b, ⟨rest, stray, read⟩) =>
          simp only [Option.map_some]
          cases left : (⟨rest, stray, read⟩ : Cursor).leftover with
          | some place =>
              constructor
              · intro parsed
                cases parsed
              · rintro ⟨read', same⟩
                cases same
                cases left
          | none =>
              obtain ⟨clean, ended⟩ := Option.or_eq_none_iff.mp left
              obtain rfl : stray = none := clean
              obtain rfl : rest = [] := by simpa using ended
              constructor
              · intro parsed
                cases parsed
                exact ⟨read, rfl⟩
              · rintro ⟨read', same⟩
                cases same
                rfl

/-- A text whose lexemes are known is parsed as its parser reads their trees. -/
theorem parse_ok_iff {text : String} {tokens : List Token} {lexemes : List Lexeme} (lexed : Lexer.tokens text = .ok tokens)
    (same : tokens.map Token.lexeme = lexemes) : parse p text = .ok a
    ↔ ∃ read, p.run (rules (levelsFor lexemes.length)) (.start (TokenTree.ofLexemes lexemes)) = some (.ok (a, ⟨[], none, read⟩)) := by
  rw [parse, lexed, ← same, List.length_map]
  exact parse_tokens_ok_iff

theorem run_of_parse_tokens {tokens : List Token} (parsed : parseTokens p tokens = .ok a) :
    ∃ n c', p.run (rules n) (.start (TokenTree.ofLexemes (tokens.map (·.lexeme)))) = some (.ok (a, c')) := by
  obtain ⟨read, ran⟩ := parse_tokens_ok_iff.mp parsed
  exact ⟨_, _, ran⟩

theorem run_of_parse {text : String} (parsed : parse p text = .ok a) :
    ∃ n c c', p.run (rules n) c = some (.ok (a, c')) := by
  rw [parse] at parsed
  cases lexed : Lexer.tokens text with
  | error place =>
      rw [lexed] at parsed
      cases parsed
  | ok tokens =>
      rw [lexed] at parsed
      obtain ⟨n, c', ran⟩ := run_of_parse_tokens (show parseTokens p tokens = .ok a from parsed)
      exact ⟨n, _, c', ran⟩

/-- A text that glyphs write is parsed from the front of their tokens. -/
theorem run_of_parse_glyphs {gs : List Glyph} (tidy : apart gs = true)
    (parsed : parse p (String.ofList (charsAll gs)) = .ok a) :
    ∃ n c', p.run (rules n) (.start (trees gs)) = some (.ok (a, c')) := by
  obtain ⟨tokens, lexed, grouped, _⟩ := Glyph.tokens_of_glyphs tidy
  rw [parse, lexed] at parsed
  rw [← grouped]
  exact run_of_parse_tokens parsed

theorem holds_of_parse {Q : α → Prop} (yields : ∀ n c, Yields p (rules n) c fun a _ => Q a) {text : String}
    (parsed : parse p text = .ok a) : Q a := by
  obtain ⟨n, c, c', ran⟩ := run_of_parse parsed
  exact yields n c a c' ran

end Accessors.Parsing
