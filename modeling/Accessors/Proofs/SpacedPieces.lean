import Accessors.Proofs.LexedLiterals
import Accessors.Token.Text
import Mathlib.Data.List.Chain

/-!
Token text while its spaces are closed. At every moment the text is made of the lexemes in their order, some with a
space behind them; a literal may have lost spaces of its own. A space is closed only beside a character of the
patterns, and between two operator characters only where the lexemes say so.
-/

namespace Accessors

open Relation (ReflTransGen)
open Spacing (seams Closes Drops)

namespace Lexeme

/-- A lexeme that a lexer can give: operators are made of certain characters, and a literal is one as a whole. -/
def Sound : Lexeme → Prop
  | punct c _ => c ∈ Lexer.punctChars ∧ c ≠ '\''
  | literal name => Literal.length? name.text.toList = some name.text.toList.length
  | _ => True

instance : (l : Lexeme) → Decidable l.Sound
  | punct _ _ => inferInstanceAs (Decidable (_ ∧ _))
  | literal _ => inferInstanceAs (Decidable (_ = _))
  | ident _ | lifetime _ | opening _ | closing _ => inferInstanceAs (Decidable True)

def isPunct : Lexeme → Bool
  | punct _ _ => true
  | _ => false

/-- Whether the space between two operator characters that stand apart is closed: the first is one that nothing stands
apart behind, or the second is one that stands apart from nothing before it, or one of them belongs to a `::`. -/
def ClosesBetween (front : List Lexeme) (c d : Char) (joint : Bool) (back : List Lexeme) : Prop :=
  c ∈ ['<', '&'] ∨ d ∈ [',', ';', '<', '>', '!']
    ∨ (c = ':' ∧ front.getLast? = some (.punct ':' true))
    ∨ (d = ':' ∧ joint = true ∧ ∃ more, back.head? = some (.punct ':' more))

/-- Somewhere two operator characters that stand apart are written together. -/
def ClosesUp (lexemes : List Lexeme) : Prop :=
  ∃ front c d joint back, lexemes = front ++ .punct c false :: .punct d joint :: back
    ∧ ClosesBetween front c d joint back

instance (front : List Lexeme) (c d : Char) (joint : Bool) (back : List Lexeme) :
    Decidable (ClosesBetween front c d joint back) :=
  have : Decidable (∃ more, back.head? = some (.punct ':' more)) :=
    decidable_of_iff (back.head? = some (.punct ':' false) ∨ back.head? = some (.punct ':' true)) (by simp)
  inferInstanceAs (Decidable (_ ∨ _))

/-- The same with the lexemes before those that are looked at. -/
def closesFrom (front : List Lexeme) : List Lexeme → Bool
  | punct c false :: punct d joint :: back =>
      ClosesBetween front c d joint back || closesFrom (front ++ [punct c false]) (punct d joint :: back)
  | l :: rest => closesFrom (front ++ [l]) rest
  | [] => false

theorem closes_from_iff (front rest : List Lexeme) : closesFrom front rest = true
    ↔ ∃ more c d joint back, rest = more ++ punct c false :: punct d joint :: back
      ∧ ClosesBetween (front ++ more) c d joint back := by
  fun_induction closesFrom front rest with
  | case1 front c d joint back ih =>
      rw [Bool.or_eq_true, decide_eq_true_iff, ih]
      constructor
      · rintro (here | ⟨more, e, f, joint', back', shape, later⟩)
        · exact ⟨[], c, d, joint, back, rfl, by rwa [List.append_nil]⟩
        · exact ⟨punct c false :: more, e, f, joint', back', by rw [shape]; rfl, by simpa using later⟩
      · rintro ⟨more, e, f, joint', back', shape, between⟩
        cases more with
        | nil =>
            obtain ⟨⟨rfl, -⟩, ⟨rfl, rfl⟩, rfl⟩ : (c = e ∧ true) ∧ (d = f ∧ joint = joint') ∧ back = back' := by
              simpa using shape
            exact Or.inl (by rwa [List.append_nil] at between)
        | cons l more =>
            obtain ⟨rfl, rest⟩ := List.cons.inj shape
            exact Or.inr ⟨more, e, f, joint', back', rest, by simpa using between⟩
  | case2 front l rest other ih =>
      rw [ih]
      constructor
      · rintro ⟨more, e, f, joint', back', rfl, later⟩
        exact ⟨l :: more, e, f, joint', back', rfl, by simpa using later⟩
      · rintro ⟨more, e, f, joint', back', shape, between⟩
        cases more with
        | nil =>
            obtain ⟨rfl, rfl⟩ := List.cons.inj shape
            exact absurd rfl (other e f joint' back' rfl)
        | cons m more =>
            obtain ⟨rfl, rest⟩ := List.cons.inj shape
            exact ⟨more, e, f, joint', back', rest, by simpa using between⟩
  | case3 front => simp

instance (lexemes : List Lexeme) : Decidable (ClosesUp lexemes) :=
  decidable_of_iff (closesFrom [] lexemes = true) (by rw [closes_from_iff]; rfl)

/-! The characters of a lexeme. -/

/-- Whether a lexeme is a word: an identifier, a lifetime or a literal. -/
def isWord : Lexeme → Bool
  | ident _ => true
  | literal _ => true
  | lifetime _ => true
  | _ => false

variable {l : Lexeme}

theorem ident_apart (name : Ident) : ∀ c ∈ name.text.toList, c ∉ seams := by
  intro c member seam
  rcases name.chars c member with rfl | continues
  · exact absurd seam (by decide)
  · rw [(Literal.seams_end c (List.mem_cons_of_mem _ seam)).1] at continues
    cases continues

/-- A word begins and ends with a character that is in no pattern. -/
theorem word_apart (sound : l.Sound) (word : l.isWord = true) :
    (∃ c, l.text.head? = some c ∧ c ∉ seams) ∧ ∃ c, l.text.getLast? = some c ∧ c ∉ seams := by
  have inner : ∀ (name : Ident) (front : List Char), (∀ c ∈ front, c ∉ seams) →
      (∃ c, (front ++ name.text.toList).head? = some c ∧ c ∉ seams)
        ∧ ∃ c, (front ++ name.text.toList).getLast? = some c ∧ c ∉ seams := by
    intro name front apart
    have all : ∀ c ∈ front ++ name.text.toList, c ∉ seams := by
      intro c member
      rcases List.mem_append.mp member with first | second
      · exact apart c first
      · exact ident_apart name c second
    have some : front ++ name.text.toList ≠ [] := fun none => name.whole.1 (List.append_eq_nil_iff.mp none).2
    exact ⟨⟨_, List.head?_eq_some_head some, all _ (List.head_mem some)⟩,
      ⟨_, List.getLast?_eq_some_getLast some, all _ (List.getLast_mem some)⟩⟩
  cases l with
  | ident name => exact inner name [] (by simp)
  | lifetime name =>
      have quoted : (lifetime name).text = ['\''] ++ name.name.text.toList := by
        simp [text, Lifetime.text]
      rw [quoted]
      exact inner name.name ['\''] (Lexer.each_of_all (by decide))
  | literal name =>
      obtain ⟨c, rest, shape, opener⟩ := Literal.first_char sound
      have known : ∀ c ∈ Literal.openers, c ∉ seams := Lexer.each_of_all (by decide)
      refine ⟨⟨c, by rw [text, shape]; rfl, known c opener⟩, ?_⟩
      have some : name.text.toList ≠ [] := by simp [shape]
      exact ⟨_, List.getLast?_eq_some_getLast some, Literal.last_char sound _ (List.getLast?_eq_some_getLast some)⟩
  | punct c joint => cases word
  | opening d => cases word
  | closing d => cases word

/-- Any other lexeme is one character. -/
theorem single_text (sound : l.Sound) (other : l.isWord = false) : ∃ c, l.text = [c] ∧ c ≠ ' ' := by
  cases l with
  | punct c joint =>
      have known : ∀ c ∈ Lexer.punctChars, c ≠ ' ' := Lexer.each_of_all (by decide)
      exact ⟨c, rfl, known c sound.1⟩
  | opening d => exact ⟨d.opening, rfl, by cases d <;> decide⟩
  | closing d => exact ⟨d.closing, rfl, by cases d <;> decide⟩
  | ident name => cases other
  | literal name => cases other
  | lifetime name => cases other

/-- A colon at the edge of a lexeme is the lexeme. -/
theorem punct_of_colon (sound : l.Sound)
    (edge : l.text.head? = some ':' ∨ l.text.getLast? = some ':') : ∃ joint, l = .punct ':' joint := by
  have seam : ':' ∈ seams := by decide
  cases word : l.isWord with
  | true =>
      obtain ⟨⟨c, first, apart⟩, d, last, apart'⟩ := word_apart sound word
      rcases edge with same | same
      · rw [first] at same
        cases same
        exact absurd seam apart
      · rw [last] at same
        cases same
        exact absurd seam apart'
  | false =>
      cases l with
      | punct c joint =>
          obtain rfl : c = ':' := by simpa [text] using edge
          exact ⟨joint, rfl⟩
      | opening d => cases d <;> simp [text, Delimiter.opening] at edge
      | closing d => cases d <;> simp [text, Delimiter.closing] at edge
      | ident name => cases word
      | literal name => cases word
      | lifetime name => cases word

/-- No lexeme begins or ends with a space. -/
theorem text_edges (sound : l.Sound) :
    (∃ c, l.text.head? = some c ∧ c ≠ ' ') ∧ ∃ c, l.text.getLast? = some c ∧ c ≠ ' ' := by
  have space : ∀ {c : Char}, c ∉ seams → c ≠ ' ' := by
    rintro c apart rfl
    exact apart (by decide)
  cases word : l.isWord with
  | true =>
      obtain ⟨⟨c, first, apart⟩, d, last, apart'⟩ := word_apart sound word
      exact ⟨⟨c, first, space apart⟩, d, last, space apart'⟩
  | false =>
      obtain ⟨c, single, other⟩ := single_text sound word
      exact ⟨⟨c, by rw [single]; rfl, other⟩, c, by rw [single]; rfl, other⟩

end Lexeme

/-! Deleting spaces inside a text. -/

namespace Spacing

variable {text less : List Char}

/-- A text that neither begins nor ends with a space keeps its first and its last character. -/
theorem run_edges (run : ReflTransGen Drops text less) {c d : Char} (first : text.head? = some c) (solid : c ≠ ' ')
    (last : text.getLast? = some d) (solid' : d ≠ ' ') : less.head? = some c ∧ less.getLast? = some d := by
  induction run with
  | refl => exact ⟨first, last⟩
  | tail _ step ih =>
      obtain ⟨before, after, rfl, rfl, -⟩ := step
      obtain ⟨first, last⟩ := ih
      have some : before ≠ [] := by
        rintro rfl
        exact solid (Option.some.inj first).symm
      have some' : after ≠ [] := by
        rintro rfl
        rw [List.getLast?_append] at last
        exact solid' (Option.some.inj last).symm
      obtain ⟨e, before, rfl⟩ := List.exists_cons_of_ne_nil some
      obtain ⟨f, after, rfl⟩ := List.exists_cons_of_ne_nil some'
      refine ⟨first, ?_⟩
      rw [List.getLast?_append] at last ⊢
      rwa [List.getLast?_cons_cons] at last

/-- Whether a space is closed in a word is told by the word alone. -/
theorem closes_inside {front before after back : List Char} (closes : Closes (front ++ before) (after ++ back))
    (first : ∃ c, before.head? = some c ∧ c ∉ seams) (last : ∃ c, after.getLast? = some c ∧ c ∉ seams) :
    Closes before after := by
  obtain ⟨rule, listed, left, right, spaced, before', after'⟩ := closes
  have among : ∀ c, c ∈ left ∨ c ∈ right → c ∈ seams := by
    intro c member
    apply spaced_seams rule listed
    rw [spaced]
    rcases member with member | member
    · exact List.mem_append_left _ member
    · exact List.mem_append_right _ (List.mem_cons_of_mem _ member)
  refine ⟨rule, listed, left, right, spaced, ?_, ?_⟩
  · rcases List.suffix_or_suffix_of_suffix before' (List.suffix_append front before) with shorter | longer
    · exact shorter
    · obtain ⟨c, head, apart⟩ := first
      exact absurd (among c (Or.inl (longer.subset (List.mem_of_mem_head? head)))) apart
  · rcases List.prefix_or_prefix_of_prefix after' (List.prefix_append after back) with shorter | longer
    · exact shorter
    · obtain ⟨c, tail, apart⟩ := last
      exact absurd (among c (Or.inr (longer.subset (List.mem_of_getLast? tail)))) apart

end Spacing

/-! Pieces. -/

/-- A lexeme as it stands in a text: its characters, and whether a space is behind it. -/
structure Piece where
  lexeme : Lexeme
  chars : List Char
  spaced : Bool

namespace Piece

def gap (p : Piece) : List Char := if p.spaced then [' '] else []

/-- The text that pieces stand in. -/
def written : List Piece → List Char
  | [] => []
  | p :: rest => p.chars ++ (p.gap ++ written rest)

/-- Lexemes with all their spaces. -/
def ofLexemes : List Lexeme → List Piece
  | [] => []
  | [only] => [⟨only, only.text, false⟩]
  | left :: right :: rest => ⟨left, left.text, (Lexeme.gap left right).length == 1⟩ :: ofLexemes (right :: rest)

variable (front back : List Piece)

@[simp] theorem written_nil : written [] = [] := rfl

@[simp] theorem written_cons (p : Piece) : written (p :: back) = p.chars ++ (p.gap ++ written back) := rfl

@[simp] theorem written_append : written (front ++ back) = written front ++ written back := by
  induction front with
  | nil => rfl
  | cons p front ih => simp [ih]

theorem gap_of_gap_length {left right : Lexeme} {chars : List Char} :
    gap ⟨left, chars, (Lexeme.gap left right).length == 1⟩ = Lexeme.gap left right := by
  unfold gap Lexeme.gap
  split <;> split <;> simp_all

theorem written_of_lexemes (lexemes : List Lexeme) : written (ofLexemes lexemes) = Lexeme.spaced lexemes := by
  fun_induction ofLexemes lexemes with
  | case1 => rfl
  | case2 only => simp [Lexeme.spaced, gap]
  | case3 left right rest ih => rw [written_cons, gap_of_gap_length, ih, Lexeme.spaced, List.append_assoc]

theorem lexemes_of_lexemes (lexemes : List Lexeme) : (ofLexemes lexemes).map lexeme = lexemes := by
  fun_induction ofLexemes lexemes with
  | case1 => rfl
  | case2 only => rfl
  | case3 left right rest ih => rw [List.map_cons, ih]

/-- Where a space is in a text: behind a piece, or in the characters of one. -/
def SpaceIn (ps : List Piece) (before after : List Char) : Prop :=
  (∃ front p back, ps = front ++ p :: back ∧ p.spaced = true ∧ before = written front ++ p.chars ∧ after = written back)
    ∨ ∃ front p back inside outside, ps = front ++ p :: back ∧ p.chars = inside ++ ' ' :: outside
        ∧ before = written front ++ inside ∧ after = outside ++ (p.gap ++ written back)

theorem SpaceIn.cons {ps : List Piece} {before after : List Char} (p : Piece) (found : SpaceIn ps before after) :
    SpaceIn (p :: ps) (p.chars ++ (p.gap ++ before)) after := by
  rcases found with ⟨front, q, back, rfl, yes, rfl, rfl⟩ | ⟨front, q, back, inside, outside, rfl, chars, rfl, rfl⟩
  · exact Or.inl ⟨p :: front, q, back, rfl, yes, by simp, rfl⟩
  · exact Or.inr ⟨p :: front, q, back, inside, outside, rfl, chars, by simp, rfl⟩

theorem space_in_written {ps : List Piece} {before after : List Char} (shape : written ps = before ++ ' ' :: after) :
    SpaceIn ps before after := by
  induction ps generalizing before with
  | nil => simp at shape
  | cons p rest ih =>
      have behind : ∀ more, p.gap ++ written rest = more ++ ' ' :: after → SpaceIn (p :: rest) (p.chars ++ more) after := by
        intro more shape
        cases spaced : p.spaced with
        | false =>
            rw [gap, spaced, if_neg Bool.false_ne_true, List.nil_append] at shape
            simpa [gap, spaced] using (ih shape).cons p
        | true =>
            rw [gap, spaced, if_pos rfl, List.singleton_append] at shape
            cases more with
            | nil =>
                obtain ⟨-, rfl⟩ := List.cons.inj shape
                exact Or.inl ⟨[], p, rest, rfl, spaced, by simp, rfl⟩
            | cons c more =>
                obtain ⟨rfl, deeper⟩ := List.cons.inj shape
                simpa [gap, spaced] using (ih deeper).cons p
      rw [written_cons] at shape
      rcases List.append_eq_append_iff.mp shape with ⟨more, rfl, rest⟩ | ⟨more, inside, rest⟩
      · exact behind more rest
      · cases more with
        | nil =>
            obtain rfl : p.chars = before := by simpa using inside
            simpa using behind [] rest.symm
        | cons c more =>
            obtain ⟨rfl, rfl⟩ := List.cons.inj rest
            exact Or.inr ⟨[], p, _, before, more, rfl, inside, rfl, rfl⟩

/-- What is said of two neighbours: a space behind the first was there, and if none is there any more, it was closed
beside a character of the patterns; between two operator characters, only where some two are written together. -/
structure Beside (lexemes : List Lexeme) (p q : Piece) : Prop where
  kept : p.spaced = true → Lexeme.gap p.lexeme q.lexeme = [' ']
  closed : p.spaced = false → Lexeme.gap p.lexeme q.lexeme = []
    ∨ (((∃ c, p.lexeme.text.getLast? = some c ∧ c ∈ seams) ∨ ∃ c, q.lexeme.text.head? = some c ∧ c ∈ seams)
      ∧ (p.lexeme.isPunct = true → q.lexeme.isPunct = true → Lexeme.ClosesUp lexemes))

end Piece

/-- Pieces that lexemes may be in while the spaces of their text are closed. -/
structure Layout (lexemes : List Lexeme) (ps : List Piece) : Prop where
  order : ps.map Piece.lexeme = lexemes
  worn : ∀ p ∈ ps, ReflTransGen Drops p.lexeme.text p.chars
  beside : ps.IsChain (Piece.Beside lexemes)

/-- An operator character without a space in front of another is joint. -/
theorem Lexeme.joint_of_glued {c d : Char} {joint joint' : Bool}
    (glued : gap (.punct c joint) (.punct d joint') = []) : joint = true := by
  cases joint with
  | true => rfl
  | false => exact absurd glued (List.cons_ne_nil ' ' [])

namespace Layout

open Lexeme (joint_of_glued)
open Piece (written Beside)

variable {lexemes : List Lexeme} {ps : List Piece}

theorem chain_of_lexemes (all rest : List Lexeme) : (Piece.ofLexemes rest).IsChain (Beside all) := by
  fun_induction Piece.ofLexemes rest with
  | case1 => exact .nil
  | case2 only => exact .singleton _
  | case3 left right rest ih =>
      have first : ∃ p more, Piece.ofLexemes (right :: rest) = p :: more ∧ p.lexeme = right := by
        cases rest with
        | nil => exact ⟨_, _, rfl, rfl⟩
        | cons next rest => exact ⟨_, _, rfl, rfl⟩
      obtain ⟨p, more, shape, same⟩ := first
      rw [shape] at ih ⊢
      refine List.isChain_cons_cons.mpr ⟨⟨fun spaced => ?_, fun closed => Or.inl ?_⟩, ih⟩
      all_goals
        simp only [same, Lexeme.gap] at *
        split <;> simp_all

/-- The text of lexemes with all their spaces. -/
theorem start (lexemes : List Lexeme) : Layout lexemes (Piece.ofLexemes lexemes) where
  order := Piece.lexemes_of_lexemes lexemes
  worn := by
    intro p member
    have same : ∀ rest, ∀ p ∈ Piece.ofLexemes rest, p.chars = p.lexeme.text := by
      intro rest
      fun_induction Piece.ofLexemes rest with
      | case1 => simp
      | case2 only => simp
      | case3 left right rest ih => simpa using ih
    rw [same lexemes p member]
  beside := chain_of_lexemes lexemes lexemes

variable (layout : Layout lexemes ps)
include layout

/-- A piece may be replaced by one with the same lexeme, if it goes with its neighbour. -/
theorem replace {front back : List Piece} {p p' : Piece} (shape : ps = front ++ p :: back)
    (same : p'.lexeme = p.lexeme) (worn : ReflTransGen Drops p.lexeme.text p'.chars)
    (next : ∀ q ∈ back.head?, Beside lexemes p' q) : Layout lexemes (front ++ p' :: back) := by
  obtain ⟨all, worn', beside⟩ := layout
  subst shape
  refine ⟨by simpa [same] using all, ?_, ?_⟩
  · intro q member
    rcases List.mem_append.mp member with inFront | later
    · exact worn' q (List.mem_append_left _ inFront)
    · rcases List.mem_cons.mp later with rfl | behind
      · rwa [same]
      · exact worn' q (List.mem_append_right _ (List.mem_cons_of_mem p behind))
  · obtain ⟨before, after⟩ := List.isChain_split.mp beside
    obtain ⟨chain, -, last⟩ := List.isChain_append.mp before
    refine List.isChain_append.mpr ⟨chain, List.isChain_cons.mpr ⟨next, (List.isChain_cons.mp after).2⟩, ?_⟩
    intro q member r here
    obtain rfl : p' = r := by simpa using here
    obtain ⟨kept, closed⟩ := last q member p rfl
    exact ⟨by rwa [same], by rwa [same]⟩

variable (sound : ∀ l ∈ lexemes, l.Sound)
include sound

theorem sound_of_mem {p : Piece} (member : p ∈ ps) : p.lexeme.Sound := by
  apply sound
  rw [← layout.order]
  exact List.mem_map_of_mem member

/-- A piece begins and ends as its lexeme does. -/
theorem edges {p : Piece} (member : p ∈ ps) :
    p.chars.head? = p.lexeme.text.head? ∧ p.chars.getLast? = p.lexeme.text.getLast? ∧ p.chars ≠ [] := by
  obtain ⟨⟨c, first, solid⟩, d, last, solid'⟩ := Lexeme.text_edges (layout.sound_of_mem sound member)
  obtain ⟨first', last'⟩ := Spacing.run_edges (layout.worn p member) first solid last solid'
  refine ⟨by rw [first, first'], by rw [last, last'], ?_⟩
  intro none
  rw [none] at first'
  cases first'

/-- Only words lose spaces of their own. -/
theorem chars_single {p : Piece} (member : p ∈ ps) (other : p.lexeme.isWord = false) : p.chars = p.lexeme.text := by
  obtain ⟨c, single, -⟩ := Lexeme.single_text (layout.sound_of_mem sound member) other
  have less := Spacing.run_sublist (layout.worn p member)
  obtain ⟨first, -, some⟩ := layout.edges sound member
  rw [single] at less ⊢
  rcases List.sublist_singleton.mp less with none | same
  · exact absurd none some
  · exact same

/-- A colon right before a piece is an operator character without a space behind it. -/
theorem colon_before {front back : List Piece} {p : Piece} (shape : ps = front ++ p :: back)
    (colon : (written front).getLast? = some ':') :
    ∃ more q joint, front = more ++ [q] ∧ q.lexeme = .punct ':' joint ∧ Beside lexemes q p ∧ q.spaced = false := by
  rcases List.eq_nil_or_concat' front with rfl | ⟨more, q, rfl⟩
  · cases colon
  · subst shape
    have member : q ∈ more ++ [q] ++ p :: back := by simp
    have close : q.spaced = false := by
      cases spaced : q.spaced with
      | false => rfl
      | true => simp [Piece.gap, spaced, List.getLast?_append] at colon
    have last : q.lexeme.text.getLast? = some ':' := by
      obtain ⟨-, same, some⟩ := layout.edges sound member
      rw [← same]
      simpa [Piece.gap, close, some] using colon
    obtain ⟨joint, punct⟩ := Lexeme.punct_of_colon (layout.sound_of_mem sound member) (Or.inr last)
    have beside := layout.beside
    rw [List.append_assoc, List.singleton_append] at beside
    exact ⟨more, q, joint, rfl, punct, (List.isChain_append_cons_cons.mp beside).2.1, close⟩

/-- A colon right behind a piece is an operator character. -/
theorem colon_behind {front back : List Piece} {p : Piece} (shape : ps = front ++ p :: back)
    (colon : (p.gap ++ written back).head? = some ':') :
    ∃ q more joint, back = q :: more ∧ q.lexeme = .punct ':' joint ∧ Beside lexemes p q ∧ p.spaced = false := by
  have close : p.spaced = false := by
    cases spaced : p.spaced with
    | false => rfl
    | true => simp [Piece.gap, spaced] at colon
  cases back with
  | nil => simp [Piece.gap, close] at colon
  | cons q more =>
      subst shape
      have member : q ∈ front ++ p :: q :: more := by simp
      have first : q.lexeme.text.head? = some ':' := by
        obtain ⟨same, -, some⟩ := layout.edges sound member
        rw [← same]
        simpa [Piece.gap, close, some] using colon
      obtain ⟨joint, punct⟩ := Lexeme.punct_of_colon (layout.sound_of_mem sound member) (Or.inl first)
      exact ⟨q, more, joint, rfl, punct, (List.isChain_append_cons_cons.mp layout.beside).2.1, close⟩

/-- Where a space between two operator characters is closed, the lexemes say so. -/
theorem closes_up {front more : List Piece} {c d : Char} {joint spaced spaced' : Bool}
    (shape : ps = front ++ ⟨.punct c false, [c], spaced⟩ :: ⟨.punct d joint, [d], spaced'⟩ :: more)
    (closes : Closes (written front ++ [c]) (written (⟨.punct d joint, [d], spaced'⟩ :: more))) :
    Lexeme.ClosesUp lexemes := by
  have legal : c ∈ Lexer.punctChars :=
    (layout.sound_of_mem sound (p := ⟨.punct c false, [c], spaced⟩) (by simp [shape])).1
  have legal' : d ∈ Lexer.punctChars :=
    (layout.sound_of_mem sound (p := ⟨.punct d joint, [d], spaced'⟩) (by simp [shape])).1
  have order := layout.order
  rw [shape, List.map_append, List.map_cons, List.map_cons] at order
  have here : Lexeme.ClosesBetween (front.map Piece.lexeme) c d joint (more.map Piece.lexeme) →
      Lexeme.ClosesUp lexemes :=
    fun between => ⟨_, c, d, joint, _, order.symm, between⟩
  rcases Spacing.closes_iff.mp closes with ⟨e, listed, same⟩ | ⟨e, listed, same⟩ | colons | colons | ⟨-, paren⟩
  · obtain rfl : c = e := by simpa using same
    have table : ∀ c ∈ ['<', '&', '(', '['], c ∈ Lexer.punctChars → c ∈ ['<', '&'] := Lexer.each_of_all (by decide)
    exact here (Or.inl (table c listed legal))
  · obtain rfl : d = e := by simpa using same
    have table : ∀ d ∈ [',', ';', '<', '>', '!', ')', ']'], d ∈ Lexer.punctChars → d ∈ [',', ';', '<', '>', '!'] :=
      Lexer.each_of_all (by decide)
    exact here (Or.inr (Or.inl (table d listed legal')))
  · -- the first character ends a `::` that began before it
    obtain ⟨head, whole⟩ := colons
    have parts : (head ++ [':']) ++ [':'] = written front ++ [c] := by simpa using whole
    obtain ⟨before, same⟩ := List.append_inj' parts rfl
    obtain rfl : ':' = c := by simpa using same
    have colon : (written front).getLast? = some ':' := by simp [← before]
    obtain ⟨less, q, joint', rfl, punct, beside, close⟩ := layout.colon_before sound shape colon
    rcases beside.closed close with glued | ⟨-, up⟩
    · rw [punct] at glued
      refine here (Or.inr (Or.inr (Or.inl ⟨rfl, ?_⟩)))
      simp [punct, joint_of_glued glued]
    · exact up (by rw [punct]; rfl) rfl
  · -- the second character begins a `::` that ends behind it
    obtain ⟨tail, whole⟩ := colons
    obtain ⟨rfl, behind⟩ : ':' = d ∧ ':' :: tail = Piece.gap ⟨.punct d joint, [d], spaced'⟩ ++ written more := by
      simpa using whole
    have colon : (Piece.gap ⟨.punct ':' joint, [':'], spaced'⟩ ++ written more).head? = some ':' := by
      rw [← behind]
      rfl
    have shape' : ps = (front ++ [⟨.punct c false, [c], spaced⟩]) ++ ⟨.punct ':' joint, [':'], spaced'⟩ :: more := by
      simp [shape]
    obtain ⟨q, less, joint', rfl, punct, beside, close⟩ := layout.colon_behind sound shape' colon
    rcases beside.closed close with glued | ⟨-, up⟩
    · rw [punct] at glued
      exact here (Or.inr (Or.inr (Or.inr ⟨rfl, joint_of_glued glued, joint', by simp [punct]⟩)))
    · exact up rfl (by rw [punct]; rfl)
  · obtain rfl : d = '(' := by simpa using paren
    exact absurd legal' (by decide)

/-- What is said of neighbours stays true where the space between them is closed. -/
theorem beside_closed {front more : List Piece} {p q : Piece} (shape : ps = front ++ p :: q :: more)
    (spaced : p.spaced = true) (closes : Closes (written front ++ p.chars) (written (q :: more))) :
    Beside lexemes { p with spaced := false } q where
  kept := by
    intro none
    cases none
  closed := by
    intro _
    have member : p ∈ ps := by simp [shape]
    have member' : q ∈ ps := by simp [shape]
    obtain ⟨-, last, some⟩ := layout.edges sound member
    obtain ⟨first, -, some'⟩ := layout.edges sound member'
    refine Or.inr ⟨?_, fun opener closer => ?_⟩
    · rcases (Spacing.closes_iff.mp closes).seam with ⟨c, same, seam⟩ | ⟨c, same, seam⟩
      · refine Or.inl ⟨c, ?_, seam⟩
        rw [← last]
        simpa [some] using same
      · refine Or.inr ⟨c, ?_, seam⟩
        rw [← first]
        simpa [some'] using same
    · have apart : Lexeme.gap p.lexeme q.lexeme = [' '] := by
        have beside := layout.beside
        rw [shape] at beside
        exact (List.isChain_append_cons_cons.mp beside).2.1.kept spaced
      have chars := layout.chars_single sound member
      have chars' := layout.chars_single sound member'
      obtain ⟨lexeme, pChars, pSpaced⟩ := p
      obtain ⟨lexeme', qChars, qSpaced⟩ := q
      cases lexeme with
      | punct c joint =>
          cases lexeme' with
          | punct d joint' =>
              obtain rfl : pChars = [c] := chars rfl
              obtain rfl : qChars = [d] := chars' rfl
              obtain rfl : joint = false := by
                cases joint with
                | false => rfl
                | true => exact absurd apart.symm (List.cons_ne_nil ' ' [])
              exact layout.closes_up sound shape closes
          | _ => cases closer
      | _ => cases opener

/-- Deleting a space leaves the lexemes in their order. -/
theorem drop {less : List Char} (step : Drops (written ps) less) : ∃ ps', Layout lexemes ps' ∧ written ps' = less := by
  obtain ⟨before, after, shape, rfl, closes⟩ := step
  rcases Piece.space_in_written shape with
    ⟨front, p, back, whole, spaced, rfl, rfl⟩ | ⟨front, p, back, inside, outside, whole, chars, rfl, rfl⟩
  · refine ⟨front ++ { p with spaced := false } :: back, ?_, by simp [Piece.gap]⟩
    refine layout.replace whole rfl (layout.worn p (by simp [whole])) fun q first => ?_
    obtain ⟨more, rfl⟩ := List.head?_eq_some_iff.mp (Option.mem_def.mp first)
    exact layout.beside_closed sound whole spaced closes
  · have member : p ∈ ps := by simp [whole]
    have word : p.lexeme.isWord = true := by
      cases word : p.lexeme.isWord with
      | true => rfl
      | false =>
          obtain ⟨c, single, solid⟩ := Lexeme.single_text (layout.sound_of_mem sound member) word
          have space : ' ' ∈ p.chars := by simp [chars]
          rw [layout.chars_single sound member word, single] at space
          exact absurd (List.mem_singleton.mp space).symm solid
    obtain ⟨⟨c, first, apart⟩, d, last, apart'⟩ := Lexeme.word_apart (layout.sound_of_mem sound member) word
    obtain ⟨first', last', -⟩ := layout.edges sound member
    have space : ' ' ∈ seams := by decide
    have opens : ∃ c, inside.head? = some c ∧ c ∉ seams := by
      cases inside with
      | nil =>
          rw [← first', chars] at first
          obtain rfl : ' ' = c := Option.some.inj first
          exact absurd space apart
      | cons e inside => exact ⟨c, by rw [← first, ← first', chars]; rfl, apart⟩
    have ends : ∃ c, outside.getLast? = some c ∧ c ∉ seams := by
      rw [chars, List.getLast?_append, List.getLast?_cons] at last'
      cases tail : outside.getLast? with
      | none =>
          rw [tail] at last'
          obtain rfl : ' ' = d := Option.some.inj (last'.trans last)
          exact absurd space apart'
      | some e =>
          rw [tail] at last'
          obtain rfl : e = d := Option.some.inj (last'.trans last)
          exact ⟨e, rfl, apart'⟩
    have inner : Closes inside outside := Spacing.closes_inside closes opens ends
    have worn := (layout.worn p member).tail ⟨inside, outside, chars, rfl, inner⟩
    refine ⟨front ++ { p with chars := inside ++ outside } :: back, ?_, by simp [Piece.gap]⟩
    refine layout.replace whole rfl worn fun q first => ?_
    obtain ⟨more, rfl⟩ := List.head?_eq_some_iff.mp (Option.mem_def.mp first)
    have beside := layout.beside
    rw [whole] at beside
    obtain ⟨kept, closed⟩ := (List.isChain_append_cons_cons.mp beside).2.1
    exact ⟨kept, closed⟩

theorem run {less : List Char} (run : ReflTransGen Drops (written ps) less) :
    ∃ ps', Layout lexemes ps' ∧ written ps' = less := by
  induction run with
  | refl => exact ⟨ps, layout, rfl⟩
  | tail _ step ih =>
      obtain ⟨ps', layout', rfl⟩ := ih
      exact layout'.drop sound step

/-- Only a literal loses spaces of its own. -/
theorem worn_cases {p : Piece} (member : p ∈ ps) :
    p.chars = p.lexeme.text
      ∨ ∃ name, p.lexeme = .literal name ∧ ReflTransGen Drops name.text.toList p.chars := by
  have worn := layout.worn p member
  have apart : ∀ text : List Char, (∀ c ∈ text, c ∉ seams) → ∀ rule ∈ Spacing.rules, ¬ rule.spaced <:+: text :=
    fun text apart rule among found =>
      apart ' ' (found.subset (Spacing.space_in_spaced rule among)) (by decide)
  cases shape : p.lexeme with
  | literal name =>
      rw [shape] at worn
      exact Or.inr ⟨name, rfl, worn⟩
  | ident name =>
      rw [shape] at worn
      exact Or.inl (Spacing.run_of_free (apart _ (Lexeme.ident_apart name)) worn)
  | lifetime l =>
      rw [shape] at worn
      refine Or.inl (Spacing.run_of_free (apart _ ?_) worn)
      intro c member
      rw [Lexeme.text, Lifetime.text, String.toList_append] at member
      rcases List.mem_append.mp member with quote | inside
      · obtain rfl : c = '\'' := by simpa using quote
        decide
      · exact Lexeme.ident_apart l.name c inside
  | punct c joint => exact Or.inl (shape ▸ layout.chars_single sound member (by rw [shape]; rfl))
  | opening d => exact Or.inl (shape ▸ layout.chars_single sound member (by rw [shape]; rfl))
  | closing d => exact Or.inl (shape ▸ layout.chars_single sound member (by rw [shape]; rfl))

/-- Where no pattern is left, the pieces have their characters just if no literal held a pattern. -/
theorem kept_iff (free : ∀ rule ∈ Spacing.rules, ¬ rule.spaced <:+: written ps) :
    (∀ p ∈ ps, p.chars = p.lexeme.text)
      ↔ ∀ name, Lexeme.literal name ∈ lexemes → ∀ rule ∈ Spacing.rules, ¬ rule.spaced <:+: name.text.toList := by
  constructor
  · intro kept name listed rule among found
    rw [← layout.order] at listed
    obtain ⟨p, member, same⟩ := List.mem_map.mp listed
    obtain ⟨front, back, shape⟩ := List.append_of_mem member
    refine free rule among (found.trans ⟨written front, p.gap ++ written back, ?_⟩)
    rw [shape, Piece.written_append, Piece.written_cons, kept p member, same]
    simp [Lexeme.text]
  · intro plain p member
    rcases layout.worn_cases sound member with same | ⟨name, shape, worn⟩
    · exact same
    · have listed : p.lexeme ∈ lexemes := by
        rw [← layout.order]
        exact List.mem_map_of_mem member
      rw [shape] at listed ⊢
      exact Spacing.run_of_free (plain name listed) worn

end Layout

end Accessors
