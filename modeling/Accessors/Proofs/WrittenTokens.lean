import Accessors.Parsing.Source
import Accessors.Proofs.Glyphs
import Accessors.Proofs.SpacedPieces
import Accessors.Signature.Basic

/-!
What a lexer finds in the text of lexemes that are shown and not interpreted. Words, delimiters and the characters of
operators are found again, in their order. A literal is found again if no spaced pattern stands in it, and operator
characters are joined as before if no two that stand apart are written together; otherwise they are not.
-/

namespace Accessors

open Spacing (seams)

namespace Lexer

/-- Whether every delimiter has its partner; the delimiters that are open already are given, innermost first. -/
def nested : List Delimiter → List Lexeme → Bool
  | opened, [] => opened.isEmpty
  | opened, .opening d :: rest => nested (d :: opened) rest
  | opened, .closing d :: rest =>
      match opened with
      | e :: opened => e == d && nested opened rest
      | [] => false
  | opened, _ :: rest => nested opened rest

theorem starts_comment_head {c : Char} {a b : List Char} (same : a.head? = b.head?) :
    startsComment (c :: a) = startsComment (c :: b) := by
  cases a with
  | nil => cases b <;> simp_all [startsComment]
  | cons d a =>
      cases b with
      | nil => cases same
      | cons e b =>
          obtain rfl : d = e := by simpa using same
          unfold startsComment
          split <;> split <;> simp_all

/-- What was read stays read. -/
theorem tokens_from_extends {most : Nat} {text : List Char} {pos : Pos} {opened : List (Delimiter × Pos)}
    {done tokens : List Token} (found : tokensFrom most text pos opened done = .ok tokens) :
    ∃ more, tokens = done.reverse ++ more := by
  have deeper : ∀ (read : List Token) {done : List Token}, (∃ more, tokens = (read.reverse ++ done).reverse ++ more) →
      ∃ more, tokens = done.reverse ++ more := by
    rintro read done ⟨more, rfl⟩
    exact ⟨read ++ more, by simp⟩
  induction most generalizing text pos opened done with
  | zero => cases found
  | succ most ih =>
      simp only [tokensFrom] at found
      split at found
      · exact deeper _ (ih found)
      · split at found
        · split at found
          · cases found
            exact ⟨[], by simp⟩
          · cases found
        · split at found
          · exact deeper [_] (ih found)
          · split at found
            · split at found
              · exact deeper [_] (ih found)
              · cases found
            · cases found
          · split at found
            · cases found
            · exact deeper [_] (ih found)

/-- A literal that was read stands in the text. -/
theorem prefix_of_leaf {text : List Char} {name : Literal} {n : Nat} (found : leaf? text = some (.literal name, n)) :
    name.text.toList <+: text := by
  have spelled : name.text.toList = text.take n := (text_of_leaf found).1
  rw [spelled]
  exact List.take_prefix n text

/-- The lexer reads one lexeme off the front of a text. What is open behind it goes with the lexemes that are still to
come. -/
def Advances (text : List Char) (l : Lexeme) (rest : List Char) : Prop :=
  ∀ (opened : List (Delimiter × Pos)) (more : List Lexeme), nested (opened.map Prod.fst) (l :: more) = true →
    ∀ (most : Nat) (pos : Pos) (done : List Token), text.length < most →
      ∃ most' pos' opened' token, rest.length < most' ∧ nested (opened'.map Prod.fst) more = true ∧ token.lexeme = l
        ∧ tokensFrom most text pos opened done = tokensFrom most' rest pos' opened' (token :: done)

/-- What is passed over behind a lexeme is no lexeme. -/
theorem Advances.skip {text middle rest : List Char} {l : Lexeme} (first : Advances text l middle)
    (gap : Takes middle [] rest) : Advances text l rest := by
  intro opened more partners most pos done enough
  obtain ⟨most', pos', opened', token, enough', partners', found, step⟩ := first opened more partners most pos done enough
  obtain ⟨read, most'', pos'', none, enough'', step'⟩ := gap most' pos' opened' (token :: done) enough'
  obtain rfl := List.map_eq_nil_iff.mp none
  exact ⟨most'', pos'', opened', token, enough'', partners', found, step.trans step'⟩

theorem advances_of_takes {text rest : List Char} {l : Lexeme} (takes : Takes text [l] rest)
    (leaf : ∀ opened more, nested opened (l :: more) = nested opened more) : Advances text l rest := by
  intro opened more partners most pos done enough
  obtain ⟨read, most', pos', shape, enough', step⟩ := takes most pos opened done enough
  obtain ⟨token, rfl, found⟩ := List.map_eq_singleton_iff.mp shape
  exact ⟨most', pos', opened, token, enough', by rw [← leaf, partners], found, step⟩

theorem advances_opening (d : Delimiter) (rest : List Char) : Advances (d.opening :: rest) (.opening d) rest := by
  intro opened more partners most pos done enough
  obtain ⟨most, rfl⟩ := Nat.exists_eq_succ_of_ne_zero (Nat.ne_of_gt (Nat.lt_of_le_of_lt (Nat.zero_le _) enough))
  have solid : isGap d.opening = false ∧ d.opening ≠ '/' := by cases d <;> decide
  refine ⟨most, pos.next d.opening, (d, pos) :: opened, ⟨.opening d, pos⟩, Nat.lt_of_succ_lt_succ enough, partners, rfl, ?_⟩
  rw [Nat.succ_eq_add_one, tokens_from_solid solid.1 (starts_no_comment solid.2 _), Delimiter.ofOpening?_opening]

theorem advances_closing (d : Delimiter) (rest : List Char) : Advances (d.closing :: rest) (.closing d) rest := by
  intro opened more partners most pos done enough
  obtain ⟨most, rfl⟩ := Nat.exists_eq_succ_of_ne_zero (Nat.ne_of_gt (Nat.lt_of_le_of_lt (Nat.zero_le _) enough))
  have solid : isGap d.closing = false ∧ d.closing ≠ '/' ∧ Delimiter.ofOpening? d.closing = none := by
    cases d <;> decide
  cases opened with
  | nil => cases partners
  | cons first opened =>
      obtain ⟨e, place⟩ := first
      obtain ⟨rfl, others⟩ : e = d ∧ nested (opened.map Prod.fst) more = true := by
        simpa [nested] using partners
      refine ⟨most, pos.next e.closing, opened, ⟨.closing e, pos⟩, Nat.lt_of_succ_lt_succ enough, others, rfl, ?_⟩
      rw [Nat.succ_eq_add_one, tokens_from_solid solid.1 (starts_no_comment solid.2.1 _), solid.2.2,
        Delimiter.ofClosing?_closing]
      simp

end Lexer

namespace Lexeme

def isJoint : Lexeme → Bool
  | punct _ joint => joint
  | _ => false

/-- A joint character has another operator character or an apostrophe behind it, and no comment begins there. -/
def Follows (l next : Lexeme) : Prop :=
  l.isJoint = true → Lexer.startsPunct next.text = true ∧ Lexer.startsComment (l.text ++ next.text) = false

instance (l next : Lexeme) : Decidable (Follows l next) := inferInstanceAs (Decidable (_ → _))

/-- Lexemes that can be the tokens of a text. -/
structure Legible (lexemes : List Lexeme) : Prop where
  sound : ∀ l ∈ lexemes, l.Sound
  joints : lexemes.IsChain Follows
  nested : Lexer.nested [] lexemes = true

/-- Whether a lexeme is read off the front of a text that goes on as given. -/
def Fits (after : List Char) : Lexeme → Prop
  | ident _ => Lexer.Closes after
  | lifetime _ => Lexer.Closes after
  | literal _ => Literal.Ends after
  | punct c _ => Lexer.startsComment (c :: after) = false
  | _ => True

/-- A lexeme whose joint mark is told by the text. -/
def met (joint : Bool) : Lexeme → Lexeme
  | punct c _ => punct c joint
  | other => other

/-- Whether an operator character comes first. -/
def leadsPunct : List Lexeme → Bool
  | punct _ _ :: _ => true
  | _ => false

/-- Lexemes with their operators: a character is joint only if the operator goes on behind it. -/
def knit : List Lexeme → List Lexeme
  | [] => []
  | l :: rest => l.met (l.isJoint && leadsPunct rest) :: knit rest

theorem met_met (first second : Bool) (l : Lexeme) : (l.met first).met second = l.met second := by
  cases l <;> rfl

theorem nested_met (joint : Bool) (l : Lexeme) (opened : List Delimiter) (rest : List Lexeme) :
    Lexer.nested opened (l.met joint :: rest) = Lexer.nested opened (l :: rest) := by
  cases l <;> rfl

theorem literal_of_met {joint : Bool} {l : Lexeme} {name : Literal} (same : l.met joint = .literal name) :
    l = .literal name := by
  cases l with
  | punct c _ => cases same
  | _ => exact same

theorem bare_knit (lexemes : List Lexeme) : (knit lexemes).map (met false) = lexemes.map (met false) := by
  induction lexemes with
  | nil => rfl
  | cons l rest ih => rw [knit, List.map_cons, List.map_cons, met_met, ih]

theorem drop_knit (n : Nat) (lexemes : List Lexeme) : (knit lexemes).drop n = knit (lexemes.drop n) := by
  induction n generalizing lexemes with
  | zero => rfl
  | succ n ih =>
      cases lexemes with
      | nil => rfl
      | cons l rest => exact ih rest

/-- What a lexeme begins with: what begins a word or a literal, or it is one character. -/
theorem first_cases {l : Lexeme} (sound : l.Sound) {c : Char} (first : l.text.head? = some c) :
    Text.isIdentStart c = true ∨ c ∈ Literal.openers
      ∨ (l.text = [c] ∧ c ∈ Lexer.punctChars ++ "()[]{}".toList) := by
  cases l with
  | ident name =>
      obtain ⟨d, rest, shape, opens⟩ := Lexer.word_opens name
      obtain rfl : d = c := by simpa [text, shape] using first
      exact Or.inl opens
  | lifetime l =>
      obtain rfl : '\'' = c := by simpa [text, Lifetime.text] using first
      exact Or.inr (Or.inl (by decide))
  | literal name =>
      obtain ⟨d, rest, shape, opener⟩ := Literal.first_char sound
      obtain rfl : d = c := by simpa [text, shape] using first
      exact Or.inr (Or.inl opener)
  | punct d joint =>
      obtain rfl : d = c := by simpa [text] using first
      exact Or.inr (Or.inr ⟨rfl, List.mem_append_left _ sound.1⟩)
  | opening d =>
      obtain rfl : d.opening = c := by simpa [text] using first
      exact Or.inr (Or.inr ⟨rfl, by cases d <;> decide⟩)
  | closing d =>
      obtain rfl : d.closing = c := by simpa [text] using first
      exact Or.inr (Or.inr ⟨rfl, by cases d <;> decide⟩)

/-- No lexeme begins with a byte order mark. -/
theorem first_known {l : Lexeme} (sound : l.Sound) : ∀ c, l.text.head? = some c → c ≠ Lexer.byteOrderMark := by
  intro c first
  rcases first_cases sound first with opens | opener | ⟨-, listed⟩
  · rintro rfl
    revert opens
    decide +kernel
  · have table : ∀ c ∈ Literal.openers, c ≠ Lexer.byteOrderMark := Lexer.each_of_all (by decide)
    exact table c opener
  · have table : ∀ c ∈ Lexer.punctChars ++ "()[]{}".toList, c ≠ Lexer.byteOrderMark :=
      Lexer.each_of_all (by decide)
    exact table c listed

theorem closes_of_ends {after : List Char} (ends : Literal.Ends after) : Lexer.Closes after := by
  have table : '\n' :: seams ⊆ Lexer.closers := by decide
  exact fun c first => table (ends c first)

end Lexeme

namespace Layout

open Piece (written Beside)

variable {lexemes : List Lexeme} {ps : List Piece}

/-- Behind a lexeme that ends like a word the text ends, or a character of the patterns follows. -/
theorem ends_behind (layout : Layout lexemes ps) (sound : ∀ l ∈ lexemes, l.Sound) {front back : List Piece} {p : Piece}
    (shape : ps = front ++ p :: back) (word : ∃ c, p.lexeme.text.getLast? = some c ∧ c ∉ seams)
    (plain : p.lexeme.gluesAfter = false) : Literal.Ends (p.gap ++ written back) := by
  cases spaced : p.spaced with
  | true =>
      rw [Piece.gap, spaced]
      exact Literal.ends_cons (by decide) _
  | false =>
      cases back with
      | nil =>
          rw [Piece.gap, spaced]
          exact Literal.ends_nil
      | cons q more =>
          have member : q ∈ ps := by simp [shape]
          obtain ⟨first, -, some⟩ := layout.edges sound member
          have beside := layout.beside
          rw [shape] at beside
          intro c head
          have head' : q.lexeme.text.head? = Option.some c := by
            rw [← first]
            simpa [Piece.gap, spaced, some] using head
          rcases (List.isChain_append_cons_cons.mp beside).2.1.closed spaced with glued | ⟨⟨d, last, seam⟩ | ⟨d, other, seam⟩, -⟩
          · have closes : q.lexeme.gluesBefore = true := by
              cases glue : q.lexeme.gluesBefore with
              | true => rfl
              | false => simp [Lexeme.gap, plain, glue] at glued
            rw [Lexeme.gluesBefore.eq_def] at closes
            split at closes
            · next same =>
                rw [same] at head'
                cases head'
                decide
            · next same =>
                rw [same] at head'
                cases head'
                decide
            · cases closes
          · obtain ⟨e, same, apart⟩ := word
            rw [same] at last
            cases last
            exact absurd seam apart
          · rw [head'] at other
            cases other
            exact List.mem_cons_of_mem _ seam

/-- Each lexeme is read off the text from where it stands. -/
theorem fits (layout : Layout lexemes ps) (legible : Lexeme.Legible lexemes) {front back : List Piece} {p : Piece}
    (shape : ps = front ++ p :: back) : p.lexeme.Fits (p.gap ++ written back) := by
  have legal := layout.sound_of_mem legible.sound (p := p) (by simp [shape])
  have behind := layout.ends_behind legible.sound shape
  cases same : p.lexeme with
  | ident name =>
      rw [same] at behind legal
      exact Lexeme.closes_of_ends (behind (Lexeme.word_apart legal rfl).2 rfl)
  | lifetime name =>
      rw [same] at behind legal
      exact Lexeme.closes_of_ends (behind (Lexeme.word_apart legal rfl).2 rfl)
  | literal name =>
      rw [same] at behind legal
      exact behind (Lexeme.word_apart legal rfl).2 rfl
  | punct c joint =>
      by_cases slash : c = '/'
      · subst slash
        cases joint with
        | false =>
            rw [same] at behind
            have ends := behind ⟨'/', rfl, by decide⟩ rfl
            have table : ∀ d ∈ '\n' :: seams, Lexer.startsComment ['/', d] = false := Lexer.each_of_all (by decide)
            cases after : p.gap ++ written back with
            | nil => rfl
            | cons d more =>
                have seam := ends d (by rw [after]; rfl)
                exact (Lexer.starts_comment_head (a := d :: more) (b := [d]) rfl).trans (table d seam)
        | true =>
            cases spaced : p.spaced with
            | true =>
                rw [Piece.gap, spaced]
                rfl
            | false =>
                cases back with
                | nil =>
                    rw [Piece.gap, spaced]
                    rfl
                | cons q more =>
                    obtain ⟨first, -, some⟩ := layout.edges legible.sound (p := q) (by simp [shape])
                    have joints := legible.joints
                    rw [← layout.order, shape, List.map_append, List.map_cons, List.map_cons, same] at joints
                    have plain := ((List.isChain_append_cons_cons.mp joints).2.1 rfl).2
                    refine (Lexer.starts_comment_head ?_).trans plain
                    obtain ⟨c, rest, chars⟩ := List.exists_cons_of_ne_nil some
                    simpa [Piece.gap, spaced, chars] using first
      · exact Lexer.starts_no_comment slash _
  | opening d => trivial
  | closing d => trivial

end Layout

namespace Piece

open Lexer (tokensFrom Takes Advances takes_blank takes_nothing takes_leaf takes_leaf_here advances_of_takes
  advances_opening advances_closing startsPunct)

/-- Pieces that a lexer can read one after the other. -/
def Readable : List Piece → Prop
  | [] => True
  | p :: rest => p.lexeme.Sound ∧ p.lexeme.Fits (p.gap ++ written rest) ∧ Readable rest

/-- The lexemes as they are found in the text: a character is joint where an operator goes on behind it. -/
def met : List Piece → List Lexeme
  | [] => []
  | p :: rest => p.lexeme.met (startsPunct (p.gap ++ written rest)) :: met rest

theorem takes_gap (p : Piece) (text : List Char) : Takes (p.gap ++ text) [] text := by
  cases spaced : p.spaced with
  | true =>
      rw [gap, spaced]
      exact takes_blank text
  | false =>
      rw [gap, spaced]
      exact takes_nothing text

/-- A lexeme that fits is read off the text. -/
theorem advances_lexeme {l : Lexeme} (sound : l.Sound) {text : List Char} (fits : l.Fits text) :
    Advances (l.text ++ text) (l.met (startsPunct text)) text := by
  cases l with
  | ident name =>
      obtain ⟨c, rest, shape, opens⟩ := Lexer.word_opens name
      obtain ⟨gap, -, opening, closing, -, -, slash⟩ := Lexer.ident_start_plain opens
      have first : name.text.toList.head? = some c := by rw [shape]; rfl
      exact advances_of_takes (takes_leaf (Lexer.leaf_of_word name fits) first ⟨gap, opening, closing, slash⟩)
        fun _ _ => rfl
  | lifetime l =>
      have first : l.text.toList.head? = some '\'' := by simp [Lifetime.text]
      exact advances_of_takes (takes_leaf (Lexer.leaf_of_lifetime l fits) first (by decide)) fun _ _ => rfl
  | literal name =>
      obtain ⟨c, rest, shape, opener⟩ := Literal.first_char sound
      have known : ∀ c ∈ Literal.openers, Lexer.isGap c = false ∧ Delimiter.ofOpening? c = none
          ∧ Delimiter.ofClosing? c = none ∧ c ≠ '/' := Lexer.each_of_all (by decide)
      have first : name.text.toList.head? = some c := by rw [shape]; rfl
      exact advances_of_takes (takes_leaf (Literal.leaf_of_literal sound fits) first (known c opener)) fun _ _ => rfl
  | punct c joint =>
      obtain ⟨-, -, plain⟩ := Lexer.punct_plain c sound.1
      have read := Lexer.leaf_of_punct sound.1 sound.2 fits
      have takes : Takes ([c] ++ text) [.punct c (startsPunct text)] text := takes_leaf_here read rfl plain fits
      exact advances_of_takes takes fun _ _ => rfl
  | opening d => exact advances_opening d text
  | closing d => exact advances_closing d text

theorem advances_first {p : Piece} {rest : List Piece} (readable : Readable (p :: rest))
    (same : p.chars = p.lexeme.text) :
    Advances (written (p :: rest)) (p.lexeme.met (startsPunct (p.gap ++ written rest))) (written rest) := by
  rw [written_cons, same]
  exact (advances_lexeme readable.1 readable.2.1).skip (takes_gap p (written rest))

/-- Pieces with all their characters are read to the end of the text. -/
theorem tokens_from_met {ps : List Piece} (readable : Readable ps) (kept : ∀ p ∈ ps, p.chars = p.lexeme.text) :
    ∀ {opened : List (Delimiter × Pos)} {most : Nat},
      Lexer.nested (opened.map Prod.fst) (ps.map lexeme) = true → (written ps).length < most →
        ∀ (pos : Pos) (done : List Token),
          ∃ read, tokensFrom most (written ps) pos opened done = .ok (done.reverse ++ read)
            ∧ read.map Token.lexeme = met ps := by
  induction ps with
  | nil =>
      intro opened most partners enough pos done
      obtain ⟨most, rfl⟩ := Nat.exists_eq_succ_of_ne_zero (Nat.ne_of_gt enough)
      obtain rfl : opened = [] := by simpa [Lexer.nested] using partners
      exact ⟨[], by simp [tokensFrom, Lexer.gapLength, Lexer.docComment?], rfl⟩
  | cons p rest ih =>
      intro opened most partners enough pos done
      obtain ⟨here, kept⟩ := List.forall_mem_cons.mp kept
      have partners' := Lexeme.nested_met (startsPunct (p.gap ++ written rest)) p.lexeme (opened.map Prod.fst) (rest.map lexeme)
      rw [List.map_cons] at partners
      obtain ⟨most', pos', opened', token, enough', partners, found, step⟩ :=
        advances_first readable here opened (rest.map lexeme) (partners'.trans partners) most pos done enough
      obtain ⟨read, more, same⟩ := ih readable.2.2 kept partners enough' pos' (token :: done)
      refine ⟨token :: read, ?_, by rw [List.map_cons, found, same, met]⟩
      rw [step, more, List.reverse_cons, List.append_assoc, List.singleton_append]

/-- The first lexeme that is read where a literal stands that may have lost spaces. -/
theorem first_read {name : Literal} (sound : (Lexeme.literal name).Sound) {chars rest : List Char}
    (run : Relation.ReflTransGen Spacing.Drops name.text.toList chars) {most : Nat} {pos : Pos}
    {opened : List (Delimiter × Pos)} {done tokens : List Token}
    (found : tokensFrom most (chars ++ rest) pos opened done = .ok tokens) :
    ∃ lexeme n more, Lexer.leaf? (chars ++ rest) = some (lexeme, n) ∧ tokens = done.reverse ++ ⟨lexeme, pos⟩ :: more := by
  obtain ⟨c, front, shape, opener⟩ := Literal.first_char sound
  obtain ⟨-, d, last, solid⟩ := Lexeme.text_edges sound
  have known : ∀ c ∈ Literal.openers, c ≠ ' ' ∧ Lexer.isGap c = false ∧ Delimiter.ofOpening? c = none
      ∧ Delimiter.ofClosing? c = none ∧ c ≠ '/' := Lexer.each_of_all (by decide)
  obtain ⟨space, gap, opening, closing, slash⟩ := known c opener
  obtain ⟨first, -⟩ := Spacing.run_edges run (by rw [shape]; rfl) space last solid
  obtain ⟨chars, rfl⟩ := List.head?_eq_some_iff.mp first
  cases most with
  | zero => cases found
  | succ most =>
      rw [List.cons_append, Lexer.tokens_from_solid gap (Lexer.starts_no_comment slash _), opening, closing] at found
      rw [List.cons_append]
      cases leaf : Lexer.leaf? (c :: (chars ++ rest)) with
      | none =>
          rw [leaf] at found
          cases found
      | some result =>
          obtain ⟨lexeme, n⟩ := result
          rw [leaf] at found
          obtain ⟨more, same⟩ := Lexer.tokens_from_extends found
          exact ⟨lexeme, n, more, rfl, by rw [same]; simp⟩

/-- A text in which a literal has lost spaces is not read as these lexemes. -/
theorem kept_of_tokens_from {ps : List Piece} (readable : Readable ps)
    (worn : ∀ p ∈ ps, p.chars = p.lexeme.text
      ∨ ∃ name, p.lexeme = .literal name ∧ Relation.ReflTransGen Spacing.Drops name.text.toList p.chars) :
    ∀ {opened : List (Delimiter × Pos)} {most : Nat} {pos : Pos} {done tokens : List Token},
      Lexer.nested (opened.map Prod.fst) (ps.map lexeme) = true → (written ps).length < most →
        tokensFrom most (written ps) pos opened done = .ok tokens →
          tokens.map (fun t => t.lexeme.met false)
            = done.reverse.map (fun t => t.lexeme.met false) ++ ps.map (fun p => p.lexeme.met false) →
            ∀ p ∈ ps, p.chars = p.lexeme.text := by
  induction ps with
  | nil => exact fun _ _ _ _ p member => absurd member List.not_mem_nil
  | cons p rest ih =>
      intro opened most pos done tokens partners enough found alike
      obtain ⟨here, worn⟩ := List.forall_mem_cons.mp worn
      by_cases same : p.chars = p.lexeme.text
      · have partners' := Lexeme.nested_met (startsPunct (p.gap ++ written rest)) p.lexeme (opened.map Prod.fst) (rest.map lexeme)
        rw [List.map_cons] at partners
        obtain ⟨most', pos', opened', token, enough', partners, first, step⟩ :=
          advances_first readable same opened (rest.map lexeme) (partners'.trans partners) most pos done enough
        rw [step] at found
        refine List.forall_mem_cons.mpr ⟨same, ih readable.2.2 worn partners enough' found ?_⟩
        rw [alike, List.reverse_cons, List.map_append, List.append_assoc, List.map_cons, List.map_cons, List.map_nil, first,
          Lexeme.met_met, List.singleton_append]
      · obtain ⟨name, shape, run⟩ := here.resolve_left same
        have sound := readable.1
        rw [shape] at sound same
        have shorter : ¬ name.text.toList <+: p.chars ++ (p.gap ++ written rest) :=
          Spacing.not_prefix_of_run run same (Lexeme.text_edges sound).2
        obtain ⟨lexeme, n, more, leaf, rfl⟩ := first_read sound run found
        rw [List.map_append, List.append_cancel_left_eq, List.map_cons, List.map_cons, shape] at alike
        have literal : lexeme = .literal name := Lexeme.literal_of_met (List.cons.inj alike).1
        rw [literal] at leaf
        exact absurd (Lexer.prefix_of_leaf leaf) shorter

end Piece

namespace Layout

open Lexeme (knit leadsPunct ClosesUp joint_of_glued)
open Lexer (startsPunct)
open Piece (written met)

variable {lexemes : List Lexeme} {ps : List Piece}

theorem readable (layout : Layout lexemes ps) (legible : Lexeme.Legible lexemes) : Piece.Readable ps := by
  have each : ∀ rest front, ps = front ++ rest → Piece.Readable rest := by
    intro rest
    induction rest with
    | nil => exact fun _ _ => trivial
    | cons p rest ih =>
        intro front shape
        refine ⟨layout.sound_of_mem legible.sound (by simp [shape]), layout.fits legible shape, ?_⟩
        exact ih (front ++ [p]) (by simp [shape])
  exact each ps [] rfl

theorem first_known (layout : Layout lexemes ps) (sound : ∀ l ∈ lexemes, l.Sound) :
    ∀ c, (written ps).head? = some c → c ≠ Lexer.byteOrderMark := by
  cases ps with
  | nil => exact fun _ first => by cases first
  | cons p rest =>
      intro c first
      obtain ⟨same, -, some⟩ := layout.edges sound (p := p) List.mem_cons_self
      refine Lexeme.first_known (layout.sound_of_mem sound (p := p) List.mem_cons_self) c ?_
      rw [← same]
      simpa [some] using first

/-- Whether a character of an operator is joined to the next one in the text. -/
theorem joins_iff (layout : Layout lexemes ps) (legible : Lexeme.Legible lexemes) {front more : List Piece} {p q : Piece}
    (shape : ps = front ++ p :: q :: more) (punct : q.lexeme.isPunct = true) :
    startsPunct (p.gap ++ written (q :: more)) = !p.spaced := by
  cases spaced : p.spaced with
  | true =>
      rw [Piece.gap, spaced]
      rfl
  | false =>
      have shape' : ps = (front ++ [p]) ++ q :: more := by simp [shape]
      have fits := layout.fits legible shape'
      have legal := layout.sound_of_mem legible.sound (p := q) (by simp [shape])
      have single := layout.chars_single legible.sound (p := q) (by simp [shape])
      cases same : q.lexeme with
      | punct d joint =>
          rw [same] at fits legal single
          have chars : q.chars = [d] := single rfl
          have plain : Lexer.startsComment (d :: (q.gap ++ written more)) = false := fits
          simp only [Piece.gap, spaced, Piece.written_cons, chars, startsPunct] at plain ⊢
          simpa [legal.1] using plain
      | _ => simp [same, Lexeme.isPunct] at punct

theorem leads_met (ps : List Piece) : leadsPunct (met ps) = leadsPunct (ps.map Piece.lexeme) := by
  cases ps with
  | nil => rfl
  | cons p rest =>
      rw [met, List.map_cons]
      cases p.lexeme <;> rfl

theorem drop_met (n : Nat) (ps : List Piece) : (met ps).drop n = met (ps.drop n) := by
  induction n generalizing ps with
  | zero => rfl
  | succ n ih =>
      cases ps with
      | nil => rfl
      | cons p rest => exact ih rest

/-- A space after a character of an operator that goes on was never there. -/
theorem unspaced_of_joint {p q : Piece} (beside : Piece.Beside lexemes p q) {c d : Char} {joint : Bool}
    (first : p.lexeme = .punct c true) (second : q.lexeme = .punct d joint) : p.spaced = false := by
  cases spaced : p.spaced with
  | false => rfl
  | true =>
      have kept := beside.kept spaced
      rw [first, second] at kept
      exact absurd kept.symm (List.cons_ne_nil ' ' [])

/-- A character is written together with the next one of an operator just if it is joint. -/
theorem joint_iff {p q : Piece} (beside : Piece.Beside lexemes p q) (apart : ¬ ClosesUp lexemes) {c d : Char}
    {joint joint' : Bool} (first : p.lexeme = .punct c joint) (second : q.lexeme = .punct d joint') :
    (!p.spaced) = joint := by
  cases joint with
  | true => rw [unspaced_of_joint beside first second, Bool.not_false]
  | false =>
      cases spaced : p.spaced with
      | true => rfl
      | false =>
          rcases beside.closed spaced with glued | ⟨-, up⟩
          · rw [first, second] at glued
            cases joint_of_glued glued
          · exact absurd (up (by rw [first]; rfl) (by rw [second]; rfl)) apart

/-- Where no two operator characters are written together that stand apart, the operators are found again. -/
theorem knit_met (layout : Layout lexemes ps) (legible : Lexeme.Legible lexemes) (apart : ¬ ClosesUp lexemes) :
    knit (met ps) = knit lexemes := by
  have each : ∀ rest front, ps = front ++ rest → knit (met rest) = knit (rest.map Piece.lexeme) := by
    intro rest
    induction rest with
    | nil => exact fun _ _ => rfl
    | cons p rest ih =>
        intro front shape
        have later := ih (front ++ [p]) (by simp [shape])
        rw [met, List.map_cons, knit, knit, later, leads_met, Lexeme.met_met]
        congr 1
        cases lead : leadsPunct (rest.map Piece.lexeme) with
        | false => simp
        | true =>
            cases rest with
            | nil => cases lead
            | cons q more =>
                have punct' : q.lexeme.isPunct = true := by
                  cases same : q.lexeme <;> simp_all [leadsPunct, Lexeme.isPunct]
                have beside := layout.beside
                rw [shape] at beside
                rw [layout.joins_iff legible shape punct']
                cases same : p.lexeme with
                | punct c joint =>
                    obtain ⟨d, joint', same'⟩ : ∃ d joint', q.lexeme = .punct d joint' := by
                      cases other : q.lexeme <;> simp_all [Lexeme.isPunct]
                    rw [joint_iff (List.isChain_append_cons_cons.mp beside).2.1 apart same same']
                    rfl
                | _ => rfl
  rw [each ps [] rfl, layout.order]

/-- The space between two operator characters that are written together is closed in the end. -/
theorem not_spaced (layout : Layout lexemes ps) (sound : ∀ l ∈ lexemes, l.Sound)
    (tight : ∀ before after, written ps = before ++ ' ' :: after → ¬ Spacing.Closes before after)
    {front more : List Piece} {p q : Piece} (shape : ps = front ++ p :: q :: more) {c d : Char} {joint : Bool}
    (first : p.lexeme = .punct c false) (second : q.lexeme = .punct d joint)
    (between : Lexeme.ClosesBetween (front.map Piece.lexeme) c d joint (more.map Piece.lexeme)) : p.spaced = false := by
  have single : ∀ r ∈ ps, ∀ {e j}, r.lexeme = .punct e j → r.chars = [e] := by
    intro r member e j same
    have chars := layout.chars_single sound member (by rw [same]; rfl)
    rw [chars, same]
    rfl
  have chars := single p (by simp [shape]) first
  have chars' := single q (by simp [shape]) second
  have beside := layout.beside
  rw [shape] at beside
  cases spaced : p.spaced with
  | false => rfl
  | true =>
      refine absurd (Spacing.closes_iff.mpr ?_) (tight (written front ++ [c]) (written (q :: more)) ?_)
      · rcases between with listed | listed | ⟨rfl, colon⟩ | ⟨rfl, rfl, joint', colon⟩
        · have table : ['<', '&'] ⊆ ['<', '&', '(', '['] := by decide
          exact Or.inl ⟨c, table listed, by simp⟩
        · have table : [',', ';', '<', '>', '!'] ⊆ [',', ';', '<', '>', '!', ')', ']'] := by decide
          exact Or.inr (Or.inl ⟨d, table listed, by simp [chars']⟩)
        · -- the character before is the first of the `::`
          rw [List.getLast?_map] at colon
          obtain ⟨r, last, same⟩ := Option.map_eq_some_iff.mp colon
          obtain ⟨less, rfl⟩ := List.getLast?_eq_some_iff.mp last
          rw [List.append_assoc, List.singleton_append] at beside
          have close := unspaced_of_joint (List.isChain_append_cons_cons.mp beside).2.1 same first
          have colons := single r (by simp [shape]) same
          exact Or.inr (Or.inr (Or.inl ⟨written less, by simp [Piece.gap, close, colons]⟩))
        · -- the character behind is the second of the `::`
          rw [List.head?_map] at colon
          obtain ⟨r, head, same⟩ := Option.map_eq_some_iff.mp colon
          obtain ⟨less, rfl⟩ := List.head?_eq_some_iff.mp head
          have beside' : List.IsChain (Piece.Beside lexemes) (q :: r :: less) :=
            (List.isChain_append_cons_cons.mp beside).2.2
          have close := unspaced_of_joint (List.isChain_cons_cons.mp beside').1 second same
          have colons := single r (by simp [shape]) same
          exact Or.inr (Or.inr (Or.inr (Or.inl ⟨r.gap ++ written less, by simp [Piece.gap, close, chars', colons]⟩)))
      · rw [shape]
        simp [chars, Piece.gap, spaced]

/-- Where two operator characters that stand apart are written together, other operators are found. -/
theorem not_knit (layout : Layout lexemes ps) (legible : Lexeme.Legible lexemes)
    (tight : ∀ before after, written ps = before ++ ' ' :: after → ¬ Spacing.Closes before after)
    (together : ClosesUp lexemes) : knit (met ps) ≠ knit lexemes := by
  obtain ⟨front, c, d, joint, back, rfl, between⟩ := together
  obtain ⟨before, others, shape, rfl, rest⟩ := List.map_eq_append_iff.mp layout.order
  obtain ⟨p, others, rfl, first, rest⟩ := List.map_eq_cons_iff.mp rest
  obtain ⟨q, more, rfl, second, rfl⟩ := List.map_eq_cons_iff.mp rest
  have close := layout.not_spaced legible.sound tight shape first second between
  have joins := layout.joins_iff legible shape (by rw [second]; rfl)
  intro same
  have here := congrArg (List.drop before.length) same
  rw [Lexeme.drop_knit, Lexeme.drop_knit, drop_met, shape, List.drop_left, List.drop_left' (by simp)] at here
  rw [met, joins, close, first, knit, knit, leads_met, List.map_cons, second] at here
  simp [Lexeme.met, Lexeme.isJoint, leadsPunct] at here

end Layout

namespace Lexeme

variable {lexemes : List Lexeme}

/-- Lexing the text of lexemes gives them back, operators as they were, just if no pattern stands in a literal and no
two operator characters that stand apart are written together. -/
theorem tokens_kept_iff (legible : Legible lexemes) :
    (∃ tokens, Lexer.tokens (render lexemes) = .ok tokens ∧ knit (tokens.map Token.lexeme) = knit lexemes)
      ↔ (∀ name, .literal name ∈ lexemes → ∀ rule ∈ Spacing.rules, ¬ rule.spaced <:+: name.text.toList)
        ∧ ¬ ClosesUp lexemes := by
  have start := Spacing.tighten_run (spaced lexemes)
  rw [← Piece.written_of_lexemes] at start
  obtain ⟨ps, layout, text⟩ := (Layout.start lexemes).run legible.sound start
  rw [Piece.written_of_lexemes] at text
  have free : ∀ rule ∈ Spacing.rules, ¬ rule.spaced <:+: Piece.written ps := by
    rw [text]
    exact Spacing.tighten_free _
  have tight : ∀ before after, Piece.written ps = before ++ ' ' :: after → ¬ Spacing.Closes before after := by
    rw [text]
    exact fun _ _ => Spacing.not_closes_of_tighten
  have kept := layout.kept_iff legible.sound free
  have readable := layout.readable legible
  have partners : Lexer.nested (List.map Prod.fst ([] : List (Delimiter × Pos))) (ps.map Piece.lexeme) = true := by
    rw [layout.order]
    exact legible.nested
  have lexing : Lexer.tokens (render lexemes)
      = Lexer.tokensFrom ((Piece.written ps).length + 1) (Piece.written ps) Pos.start [] [] := by
    rw [render, ← text]
    exact Lexer.tokens_of_list (layout.first_known legible.sound)
  rw [lexing, ← kept]
  constructor
  · rintro ⟨tokens, found, same⟩
    have bare : tokens.map (fun t => t.lexeme.met false) = ps.map (fun p => p.lexeme.met false) := by
      have alike := congrArg (List.map (met false)) same
      rw [bare_knit, bare_knit, ← layout.order] at alike
      simpa [Function.comp_def] using alike
    have whole := Piece.kept_of_tokens_from readable (fun p => layout.worn_cases legible.sound) partners
      (Nat.lt_succ_self _) found (by simpa using bare)
    refine ⟨whole, fun together => layout.not_knit legible tight together ?_⟩
    obtain ⟨read, found', shape⟩ := Piece.tokens_from_met readable whole partners (Nat.lt_succ_self _) Pos.start []
    obtain rfl : tokens = read := by simpa using Except.ok.inj (found.symm.trans found')
    rw [← shape, same]
  · rintro ⟨whole, apart⟩
    obtain ⟨read, found, shape⟩ := Piece.tokens_from_met readable whole partners (Nat.lt_succ_self _) Pos.start []
    refine ⟨read, by simpa using found, ?_⟩
    rw [shape, layout.knit_met legible apart]

end Lexeme

namespace TokenSample

abbrev callee : Ident := ⟨"f", by decide +kernel⟩
abbrev left : Ident := ⟨"p", by decide +kernel⟩
abbrev right : Ident := ⟨"q", by decide +kernel⟩

/-- A product of which the second factor has a sign. -/
def product : List Lexeme :=
  [.opening .brace, .ident left, .punct '*' false, .punct '-' false, .ident right, .closing .brace]

/-- A call with a text that holds a pattern. -/
def call : List Lexeme := [.ident callee, .opening .paren, .literal ⟨"\"a , b\"", by decide +kernel⟩, .closing .paren]

/-- The bits in common with what is behind a reference. -/
def bits : List Lexeme :=
  [.opening .brace, .ident left, .punct '&' false, .punct '&' false, .ident right, .closing .brace]

end TokenSample

open Lexeme (Legible knit render)
open TokenSample

theorem tokens_of_product_kept : ∃ tokens, Lexer.tokens (render product) = .ok tokens
    ∧ knit (tokens.map Token.lexeme) = knit product := by
  have legible : Legible product := ⟨by decide +kernel, by decide +kernel, by decide⟩
  exact (Lexeme.tokens_kept_iff legible).mpr ⟨by simp [product], by decide⟩

open Parsing (typeText)

/-- A text loses a space, and two references become one operator. -/
theorem tokens_of_lengths_lost :
    ((∃ element, typeText "[u8; f(\"a , b\")]" = .ok (.array element call)
        ∧ Signature.ty .empty (.array element call) = "[u8; f (\"a, b\")]")
      ∧ ¬ ∃ tokens, Lexer.tokens (render call) = .ok tokens ∧ knit (tokens.map Token.lexeme) = knit call)
    ∧ ((∃ element, typeText "[u8; { p & &q }]" = .ok (.array element bits)
        ∧ Signature.ty .empty (.array element bits) = "[u8; { p &&q }]")
      ∧ ¬ ∃ tokens, Lexer.tokens (render bits) = .ok tokens ∧ knit (tokens.map Token.lexeme) = knit bits) := by
  have lost {lexemes : List Lexeme}
      (other : (Lexer.tokens (render lexemes)).map (fun tokens => knit (tokens.map Token.lexeme)) ≠ .ok (knit lexemes)) :
      ¬ ∃ tokens, Lexer.tokens (render lexemes) = .ok tokens ∧ knit (tokens.map Token.lexeme) = knit lexemes := by
    rintro ⟨tokens, found, same⟩
    rw [found, Except.map, same] at other
    exact other rfl
  exact ⟨⟨⟨_, rfl, by decide +kernel⟩, lost (by decide +kernel)⟩, ⟨_, rfl, by decide +kernel⟩, lost (by decide +kernel)⟩

end Accessors
