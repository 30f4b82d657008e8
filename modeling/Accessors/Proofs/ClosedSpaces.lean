import Accessors.Token.Spacing
import Mathlib.Data.List.Infix
import Mathlib.Logic.Relation

/-!
Closing the spaces of token text. A rule deletes spaces and nothing else, one after the other, and which space it
deletes is told by the characters beside it. A later rule brings no pattern of an earlier one back, so in the end no
pattern is left, whatever the text was.
-/

namespace Accessors

namespace Text

/-- A pattern that is not empty occurs where it is a stretch of the text. -/
theorem occurs_iff {pattern : List Char} (some : pattern ≠ []) {text : List Char} :
    occurs pattern text = true ↔ pattern <:+: text := by
  induction text with
  | nil => simp [occurs, some]
  | cons c text ih => rw [occurs, Bool.or_eq_true, ih, List.isPrefixOf_iff_prefix, List.infix_cons_iff]

theorem replaceFrom_passing (pattern image : List Char) (passing : Nat) (text : List Char) :
    replaceFrom pattern image passing text = replaceFrom pattern image 0 (text.drop passing) := by
  induction text generalizing passing with
  | nil => simp [replaceFrom]
  | cons c text ih =>
      cases passing with
      | zero => rfl
      | succ passing => rw [replaceFrom, ih, List.drop_succ_cons]

/-- What replacing does at the front of a text. -/
theorem replaceAll_front {pattern : List Char} (some : pattern ≠ []) (image text : List Char) :
    text = [] ∨ (∃ rest, text = pattern ++ rest ∧ replaceAll pattern image text = image ++ replaceAll pattern image rest)
      ∨ ∃ c rest, text = c :: rest ∧ ¬ pattern <+: text ∧ replaceAll pattern image text = c :: replaceAll pattern image rest := by
  cases text with
  | nil => exact Or.inl rfl
  | cons c rest =>
      right
      by_cases opens : pattern <+: c :: rest
      · left
        obtain ⟨more, whole⟩ := opens
        refine ⟨more, whole.symm, ?_⟩
        have found : pattern.isPrefixOf (c :: rest) = true := List.isPrefixOf_iff_prefix.mpr ⟨more, whole⟩
        have behind : rest.drop (pattern.length - 1) = more := by
          obtain ⟨d, pattern, rfl⟩ := List.exists_cons_of_ne_nil some
          obtain ⟨-, rfl⟩ := List.cons.inj whole
          simp
        rw [replaceAll, replaceFrom, if_pos found, replaceFrom_passing, behind]
        rfl
      · right
        have absent : ¬ pattern.isPrefixOf (c :: rest) = true := fun found =>
          opens (List.isPrefixOf_iff_prefix.mp found)
        exact ⟨c, rest, rfl, opens, by rw [replaceAll, replaceFrom, if_neg absent]; rfl⟩

theorem replaceAll_length_le {pattern image : List Char} (shorter : image.length < pattern.length) (text : List Char) :
    (replaceAll pattern image text).length ≤ text.length := by
  have some : pattern ≠ [] := by
    rintro rfl
    exact Nat.not_lt_zero _ shorter
  induction size : text.length using Nat.strong_induction_on generalizing text with
  | _ n ih =>
      subst size
      rcases replaceAll_front some image text with rfl | ⟨rest, rfl, front⟩ | ⟨c, rest, rfl, -, front⟩
      · exact Nat.le_refl _
      · have bound := ih rest.length (by simp only [List.length_append]; omega) rest rfl
        rw [front, List.length_append, List.length_append]
        omega
      · have bound := ih rest.length (by simp) rest rfl
        rw [front, List.length_cons, List.length_cons]
        omega

theorem replaceAll_length_lt {pattern image : List Char} (shorter : image.length < pattern.length) {text : List Char}
    (found : pattern <:+: text) : (replaceAll pattern image text).length < text.length := by
  have some : pattern ≠ [] := by
    rintro rfl
    exact Nat.not_lt_zero _ shorter
  induction text with
  | nil => exact absurd (List.infix_nil.mp found) some
  | cons c text ih =>
      rcases replaceAll_front some image (c :: text) with none | ⟨rest, whole, front⟩ | ⟨d, rest, whole, opens, front⟩
      · cases none
      · have bound := replaceAll_length_le shorter rest
        rw [front, whole, List.length_append, List.length_append]
        omega
      · obtain ⟨rfl, rfl⟩ := List.cons.inj whole
        have later := ih ((List.infix_cons_iff.mp found).resolve_left opens)
        rw [front, List.length_cons, List.length_cons]
        omega

end Text

namespace Spacing

open Relation (ReflTransGen)

/-- The characters that patterns are made of. -/
def seams : List Char := " :,;<>&!()[]".toList

theorem spaced_seams : ∀ rule ∈ rules, rule.spaced ⊆ seams := by
  decide

theorem space_in_spaced : ∀ rule ∈ rules, ' ' ∈ rule.spaced := by
  decide

/-- Whether the pattern of a rule has a space where these two texts meet, if one is put there. -/
def Closes (before after : List Char) : Prop :=
  ∃ rule ∈ rules, ∃ left right, rule.spaced = left ++ ' ' :: right ∧ left <:+ before ∧ right <+: after

/-- A space is deleted that the pattern of a rule has there. -/
def Drops (text less : List Char) : Prop :=
  ∃ before after, text = before ++ ' ' :: after ∧ less = before ++ after ∧ Closes before after

/-- What stands beside a space that is closed: a character that nothing stands apart behind, one that stands apart from
nothing before it, a `::` on either side, or an exclamation mark and a parenthesis. -/
def Edged (before after : List Char) : Prop :=
  (∃ c ∈ ['<', '&', '(', '['], before.getLast? = some c)
    ∨ (∃ c ∈ [',', ';', '<', '>', '!', ')', ']'], after.head? = some c)
    ∨ [':', ':'] <:+ before ∨ [':', ':'] <+: after ∨ (before.getLast? = some '!' ∧ after.head? = some '(')

instance (before after : List Char) : Decidable (Edged before after) :=
  have (listed : List Char) (end? : Option Char) : Decidable (∃ c ∈ listed, end? = some c) :=
    decidable_of_iff (end?.any listed.contains = true) (by cases end? <;> simp)
  inferInstanceAs (Decidable (_ ∨ _))

theorem Edged.mono {left right before after : List Char} (edged : Edged left right) (before' : left <:+ before)
    (after' : right <+: after) : Edged before after := by
  have last : ∀ {c}, left.getLast? = some c → before.getLast? = some c := by
    intro c same
    obtain ⟨head, rfl⟩ := before'
    rw [List.getLast?_append, same]
    rfl
  have first : ∀ {c}, right.head? = some c → after.head? = some c := by
    intro c same
    obtain ⟨tail, rfl⟩ := after'
    rw [List.head?_append, same]
    rfl
  rcases edged with ⟨c, listed, same⟩ | ⟨c, listed, same⟩ | colons | colons | ⟨mark, paren⟩
  · exact Or.inl ⟨c, listed, last same⟩
  · exact Or.inr (Or.inl ⟨c, listed, first same⟩)
  · exact Or.inr (Or.inr (Or.inl (colons.trans before')))
  · exact Or.inr (Or.inr (Or.inr (Or.inl (colons.trans after'))))
  · exact Or.inr (Or.inr (Or.inr (Or.inr ⟨last mark, first paren⟩)))

/-- A space is closed beside a character of the patterns. -/
theorem Edged.seam {before after : List Char} (edged : Edged before after) :
    (∃ c, before.getLast? = some c ∧ c ∈ seams) ∨ ∃ c, after.head? = some c ∧ c ∈ seams := by
  rcases edged with ⟨c, listed, same⟩ | ⟨c, listed, same⟩ | ⟨head, rfl⟩ | ⟨tail, rfl⟩ | ⟨mark, -⟩
  · have table : ['<', '&', '(', '['] ⊆ seams := by decide
    exact Or.inl ⟨c, same, table listed⟩
  · have table : [',', ';', '<', '>', '!', ')', ']'] ⊆ seams := by decide
    exact Or.inr ⟨c, same, table listed⟩
  · exact Or.inl ⟨':', by simp [List.getLast?_append], by decide⟩
  · exact Or.inr ⟨':', rfl, by decide⟩
  · exact Or.inl ⟨'!', mark, by decide⟩

theorem closes_iff {before after : List Char} : Closes before after ↔ Edged before after := by
  constructor
  · rintro ⟨rule, listed, left, right, spaced, before', after'⟩
    have table : ∀ rule ∈ rules, ∀ n ∈ List.range rule.spaced.length, rule.spaced[n]? = some ' ' →
        Edged (rule.spaced.take n) (rule.spaced.drop (n + 1)) := by
      decide +kernel
    have here := table rule listed left.length (List.mem_range.mpr (by rw [spaced]; simp)) (by rw [spaced]; simp)
    have behind : rule.spaced.drop (left.length + 1) = right := by
      rw [spaced, ← List.drop_drop, List.drop_left, List.drop_succ_cons, List.drop_zero]
    rw [behind, spaced, List.take_left] at here
    exact here.mono before' after'
  · have close : ∀ left right, (⟨left ++ ' ' :: right, left ++ right⟩ : Rule) ∈ rules → left <:+ before → right <+: after →
        Closes before after :=
      fun left right listed first second => ⟨_, listed, left, right, rfl, first, second⟩
    rintro (⟨c, listed, same⟩ | ⟨c, listed, same⟩ | colons | colons | ⟨mark, paren⟩)
    · have table : (['<', '&', '(', '['].map fun c => (⟨[c, ' '], [c]⟩ : Rule)) ⊆ rules := by decide
      obtain ⟨head, rfl⟩ := List.getLast?_eq_some_iff.mp same
      exact close [c] [] (table (List.mem_map_of_mem listed)) (List.suffix_append head [c]) List.nil_prefix
    · have table : ([',', ';', '<', '>', '!', ')', ']'].map fun c => (⟨[' ', c], [c]⟩ : Rule)) ⊆ rules := by decide
      obtain ⟨tail, rfl⟩ := List.head?_eq_some_iff.mp same
      exact close [] [c] (table (List.mem_map_of_mem listed)) List.nil_suffix (List.prefix_append [c] tail)
    · exact close [':', ':'] [] (by decide) colons List.nil_prefix
    · exact close [] [':', ':'] (by decide) List.nil_suffix colons
    · obtain ⟨head, rfl⟩ := List.getLast?_eq_some_iff.mp mark
      obtain ⟨tail, rfl⟩ := List.head?_eq_some_iff.mp paren
      exact close ['!'] ['('] (by decide) (List.suffix_append head ['!']) (List.prefix_append ['('] tail)

/-! What stands beside the spaces of a pattern. -/

def edgesBehind (left : List Char) : List Char → List (List Char × List Char)
  | [] => []
  | c :: right =>
      if c = ' ' then (left, right.filter (· != ' ')) :: edgesBehind left right
      else edgesBehind (left ++ [c]) right

/-- The solid characters before and after each space of a pattern. -/
def Rule.edges (rule : Rule) : List (List Char × List Char) := edgesBehind [] rule.spaced

/-- A space is deleted that has beside it what the rule asks for. -/
def Rule.Drops (rule : Rule) (text less : List Char) : Prop :=
  ∃ before after, text = before ++ ' ' :: after ∧ less = before ++ after
    ∧ ∃ edge ∈ rule.edges, edge.1 <:+ before ∧ edge.2 <+: after

/-- Each space that a rule deletes is the only one in some pattern. -/
theorem edge_single : ∀ rule ∈ rules, ∀ edge ∈ rule.edges, ∃ other ∈ rules, other.spaced = edge.1 ++ ' ' :: edge.2 := by
  decide

theorem Rule.Drops.drops {rule : Rule} (listed : rule ∈ rules) {text less : List Char} (drop : rule.Drops text less) :
    Spacing.Drops text less := by
  obtain ⟨before, after, shape, shape', edge, member, left, right⟩ := drop
  obtain ⟨other, listed', single⟩ := edge_single rule listed edge member
  exact ⟨before, after, shape, shape', other, listed', edge.1, edge.2, single, left, right⟩

/-! One rule. -/

/-- A pattern has one space, or one at either end. -/
theorem rule_shape : ∀ rule ∈ rules,
    (∃ edge ∈ rule.edges, rule.spaced = edge.1 ++ ' ' :: edge.2 ∧ rule.tight = edge.1 ++ edge.2)
      ∨ (rule.spaced = ' ' :: (rule.tight ++ [' ']) ∧ ([], rule.tight) ∈ rule.edges ∧ (rule.tight, []) ∈ rule.edges) := by
  decide

theorem shorter_tight : ∀ rule ∈ rules, rule.tight.length < rule.spaced.length := by
  decide

theorem spaced_ne_nil {rule : Rule} (listed : rule ∈ rules) : rule.spaced ≠ [] := by
  intro none
  have shorter := shorter_tight rule listed
  rw [none] at shorter
  exact Nat.not_lt_zero _ shorter

/-- The loop of a rule comes to an end with a text: every round replaces the pattern where it stands, and the loop is
left as soon as it stands nowhere. -/
inductive Rule.EndsIn (rule : Rule) : List Char → List Char → Prop
  | closed {text : List Char} (absent : ¬ rule.spaced <:+: text) : EndsIn rule text text
  | round {text last : List Char} (found : rule.spaced <:+: text)
      (later : EndsIn rule (Text.replaceAll rule.spaced rule.tight text) last) : EndsIn rule text last

theorem ends_free {rule : Rule} {text last : List Char} (ends : rule.EndsIn text last) : ¬ rule.spaced <:+: last := by
  induction ends with
  | closed absent => exact absent
  | round _ _ ih => exact ih

section

variable {rule : Rule} (listed : rule ∈ rules)
include listed

/-- The spaces of a pattern are deleted one after the other. -/
theorem drops_pattern (front rest : List Char) :
    ReflTransGen rule.Drops (front ++ (rule.spaced ++ rest)) (front ++ (rule.tight ++ rest)) := by
  rcases rule_shape rule listed with ⟨edge, member, spaced, tight⟩ | ⟨spaced, first, last⟩
  · refine .single ⟨front ++ edge.1, edge.2 ++ rest, by simp [spaced], by simp [tight], edge, member, ?_, ?_⟩
    · exact List.suffix_append front edge.1
    · exact List.prefix_append edge.2 rest
  · have outer : rule.Drops (front ++ (rule.spaced ++ rest)) (front ++ (rule.tight ++ ' ' :: rest)) := by
      refine ⟨front, rule.tight ++ ' ' :: rest, by simp [spaced], rfl, _, first, ?_, ?_⟩
      · exact List.nil_suffix
      · exact List.prefix_append rule.tight _
    have inner : rule.Drops (front ++ (rule.tight ++ ' ' :: rest)) (front ++ (rule.tight ++ rest)) := by
      refine ⟨front ++ rule.tight, rest, by simp, by simp, _, last, ?_, ?_⟩
      · exact List.suffix_append front rule.tight
      · exact List.nil_prefix
    exact ReflTransGen.head outer (.single inner)

theorem drops_replace (front text : List Char) :
    ReflTransGen rule.Drops (front ++ text) (front ++ Text.replaceAll rule.spaced rule.tight text) := by
  induction size : text.length using Nat.strong_induction_on generalizing front text with
  | _ n ih =>
      subst size
      rcases Text.replaceAll_front (spaced_ne_nil listed) rule.tight text with
        rfl | ⟨rest, rfl, replaced⟩ | ⟨c, rest, rfl, -, replaced⟩
      · exact .refl
      · have shorter := shorter_tight rule listed
        have later := ih rest.length (by simp only [List.length_append]; omega) (front ++ rule.tight) rest rfl
        rw [List.append_assoc, List.append_assoc] at later
        rw [replaced]
        exact (drops_pattern listed front rest).trans later
      · have later := ih rest.length (by simp) (front ++ [c]) rest rfl
        rw [replaced]
        simpa using later

/-- As many rounds as there are characters are enough for the loop. -/
theorem ends_close {rounds : Nat} {text : List Char} (enough : text.length ≤ rounds) :
    rule.EndsIn text (rule.close rounds text) := by
  have occurs : ∀ {text}, Text.occurs rule.spaced text = true ↔ rule.spaced <:+: text :=
    Text.occurs_iff (spaced_ne_nil listed)
  induction rounds generalizing text with
  | zero =>
      have none : text = [] := List.eq_nil_of_length_eq_zero (Nat.le_zero.mp enough)
      rw [none]
      apply Rule.EndsIn.closed
      intro found
      exact spaced_ne_nil listed (List.infix_nil.mp found)
  | succ rounds ih =>
      rw [Rule.close]
      by_cases found : Text.occurs rule.spaced text = true
      · rw [if_pos found]
        have fewer := Text.replaceAll_length_lt (shorter_tight rule listed) (occurs.mp found)
        apply Rule.EndsIn.round (occurs.mp found)
        apply ih
        omega
      · rw [if_neg found]
        apply Rule.EndsIn.closed
        intro there
        exact found (occurs.mpr there)

theorem ends_apply (text : List Char) : rule.EndsIn text (rule.apply text) :=
  ends_close listed (Nat.le_refl text.length)

theorem drops_ends {text last : List Char} (ends : rule.EndsIn text last) : ReflTransGen rule.Drops text last := by
  induction ends with
  | closed _ => exact .refl
  | round _ _ ih => exact (drops_replace listed [] _).trans ih

end

/-! Several rules, one after the other. -/

/-- The steps of one rule bring no pattern of another rule into a text. -/
def SparedBy (earlier later : Rule) : Prop :=
  ∀ text less, later.Drops text less → earlier.spaced <:+: less → earlier.spaced <:+: text

/-- Whether a pattern can come about only where it stood already, when a space is deleted between these texts: a
pattern that reaches from one into the other does not fit them, or it stands in what was there before. -/
def spares (pattern : List Char) (edge : List Char × List Char) : Bool :=
  (List.range pattern.length).all fun n =>
    n == 0
      || !((pattern.take n).isSuffixOf edge.1 || edge.1.isSuffixOf (pattern.take n))
      || !((pattern.drop n).isPrefixOf edge.2 || edge.2.isPrefixOf (pattern.drop n))
      || Text.occurs pattern (pattern.take n ++ ' ' :: pattern.drop n)

/-- A stretch of two texts put together lies in one of them, or reaches from one into the other. -/
theorem infix_append {pattern front back : List Char} (found : pattern <:+: front ++ back) :
    pattern <:+: front ∨ pattern <:+: back
      ∨ ∃ n, 0 < n ∧ n < pattern.length ∧ pattern.take n <:+ front ∧ pattern.drop n <+: back := by
  obtain ⟨left, right, whole⟩ := found
  rw [List.append_assoc] at whole
  rcases List.append_eq_append_iff.mp whole with ⟨more, rfl, rest⟩ | ⟨more, rfl, rest⟩
  · rcases List.append_eq_append_iff.mp rest with ⟨tail, rfl, -⟩ | ⟨tail, shape, rfl⟩
    · exact Or.inl ⟨left, tail, by simp⟩
    · by_cases none : more = []
      · subst none
        exact Or.inr (Or.inl ⟨[], right, by simpa using shape⟩)
      by_cases whole : tail = []
      · subst whole
        exact Or.inl ⟨left, [], by simpa using shape⟩
      refine Or.inr (Or.inr ⟨more.length, List.length_pos_iff.mpr none, ?_, ?_, ?_⟩)
      · have size := List.length_pos_iff.mpr whole
        rw [shape, List.length_append]
        omega
      · rw [shape, List.take_left]
        exact List.suffix_append left more
      · rw [shape, List.drop_left]
        exact List.prefix_append tail right
  · exact Or.inr (Or.inl ⟨more, right, by rw [rest, List.append_assoc]⟩)

theorem suffix_total {a b text : List Char} (first : a <:+ text) (second : b <:+ text) :
    (a.isSuffixOf b || b.isSuffixOf a) = true := by
  rw [Bool.or_eq_true, List.isSuffixOf_iff_suffix, List.isSuffixOf_iff_suffix]
  exact List.suffix_or_suffix_of_suffix first second

theorem prefix_total {a b text : List Char} (first : a <+: text) (second : b <+: text) :
    (a.isPrefixOf b || b.isPrefixOf a) = true := by
  rw [Bool.or_eq_true, List.isPrefixOf_iff_prefix, List.isPrefixOf_iff_prefix]
  exact List.prefix_or_prefix_of_prefix first second

theorem spared_of_spares {earlier later : Rule} (some : earlier.spaced ≠ [])
    (edges : later.edges.all (spares earlier.spaced) = true) : SparedBy earlier later := by
  rintro text less ⟨before, after, rfl, rfl, edge, member, left, right⟩ found
  rcases infix_append found with inFront | behind | ⟨n, pos, short, first, second⟩
  · exact inFront.trans (List.prefix_append before _).isInfix
  · exact behind.trans ((List.suffix_cons ' ' after).isInfix.trans (List.suffix_append before _).isInfix)
  · have spared := List.all_eq_true.mp (List.all_eq_true.mp edges edge member) n (List.mem_range.mpr short)
    rw [suffix_total first left, prefix_total second right] at spared
    have stood : earlier.spaced <:+: earlier.spaced.take n ++ ' ' :: earlier.spaced.drop n := by
      simpa [Nat.pos_iff_ne_zero.mp pos, Text.occurs_iff some] using spared
    obtain ⟨head, shape⟩ := first
    obtain ⟨tail, shape'⟩ := second
    refine stood.trans ⟨head, tail, ?_⟩
    rw [← shape, ← shape']
    simp

theorem rules_spared : rules.Pairwise SparedBy := by
  have table : rules.Pairwise fun earlier later => later.edges.all (spares earlier.spaced) = true := by decide +kernel
  refine List.Pairwise.imp_of_mem (fun listed _ edges => ?_) table
  exact spared_of_spares (spaced_ne_nil listed) edges

theorem spared_run {earlier later : Rule} (spared : SparedBy earlier later) {text less : List Char}
    (run : ReflTransGen later.Drops text less) (free : ¬ earlier.spaced <:+: text) : ¬ earlier.spaced <:+: less := by
  induction run with
  | refl => exact free
  | tail _ step ih => exact fun found => ih (spared _ _ step found)

theorem drops_apply {rule : Rule} (listed : rule ∈ rules) (text : List Char) :
    ReflTransGen rule.Drops text (rule.apply text) :=
  drops_ends listed (ends_apply listed text)

theorem free_fold {earlier : Rule} {later : List Rule} (listed : ∀ rule ∈ later, rule ∈ rules)
    (spared : ∀ rule ∈ later, SparedBy earlier rule) {text : List Char} (free : ¬ earlier.spaced <:+: text) :
    ¬ earlier.spaced <:+: later.foldl Rule.apply text := by
  induction later generalizing text with
  | nil => exact free
  | cons rule later ih =>
      obtain ⟨here, more⟩ := List.forall_mem_cons.mp listed
      obtain ⟨spare, spared⟩ := List.forall_mem_cons.mp spared
      exact ih more spared (spared_run spare (drops_apply here text) free)

/-- No pattern is left of rules that spare the patterns of those before them. -/
theorem all_free_fold {some : List Rule} (listed : ∀ rule ∈ some, rule ∈ rules) (spared : some.Pairwise SparedBy)
    (text : List Char) : ∀ rule ∈ some, ¬ rule.spaced <:+: some.foldl Rule.apply text := by
  induction some generalizing text with
  | nil => exact fun _ member => absurd member List.not_mem_nil
  | cons first later ih =>
      obtain ⟨here, more⟩ := List.forall_mem_cons.mp listed
      obtain ⟨spare, spared⟩ := List.pairwise_cons.mp spared
      refine List.forall_mem_cons.mpr ⟨?_, ih more spared (first.apply text)⟩
      exact free_fold more spare (ends_free (ends_apply here text))

/-- Tightening ends with a text that holds no pattern. -/
theorem tighten_free (text : List Char) : ∀ rule ∈ rules, ¬ rule.spaced <:+: tighten text :=
  all_free_fold (fun _ member => member) rules_spared text

theorem fold_run {some : List Rule} (listed : ∀ rule ∈ some, rule ∈ rules) (text : List Char) :
    ReflTransGen Drops text (some.foldl Rule.apply text) := by
  induction some generalizing text with
  | nil => exact .refl
  | cons rule later ih =>
      obtain ⟨here, more⟩ := List.forall_mem_cons.mp listed
      have first := ReflTransGen.mono (fun _ _ => Rule.Drops.drops here) _ _ (drops_apply here text)
      exact first.trans (ih more _)

/-- Tightening deletes spaces, one after the other. -/
theorem tighten_run (text : List Char) : ReflTransGen Drops text (tighten text) :=
  fold_run (fun _ member => member) text

/-- No space is left that a rule would delete. -/
theorem not_closes_of_tighten {text before after : List Char} (shape : tighten text = before ++ ' ' :: after) :
    ¬ Closes before after := by
  rintro ⟨rule, listed, left, right, spaced, ⟨head, rfl⟩, tail, rfl⟩
  refine tighten_free text rule listed ⟨head, tail, ?_⟩
  rw [shape, spaced]
  simp

/-- A text that holds no pattern loses nothing. -/
theorem run_of_free {text less : List Char} (free : ∀ rule ∈ rules, ¬ rule.spaced <:+: text)
    (run : ReflTransGen Drops text less) : less = text := by
  rcases ReflTransGen.cases_head run with same | ⟨next, ⟨before, after, rfl, -, closes⟩, -⟩
  · exact same.symm
  · obtain ⟨rule, listed, left, right, spaced, ⟨head, rfl⟩, tail, rfl⟩ := closes
    refine absurd ⟨head, tail, ?_⟩ (free rule listed)
    rw [spaced]
    simp

theorem run_sublist {text less : List Char} (run : ReflTransGen Drops text less) : less.Sublist text := by
  induction run with
  | refl => exact List.Sublist.refl _
  | tail _ step ih =>
      obtain ⟨before, after, rfl, rfl, -⟩ := step
      exact (List.Sublist.append_left (List.sublist_cons_self ' ' after) before).trans ih

/-- Nothing but spaces is lost. -/
theorem run_solid {text less : List Char} (run : ReflTransGen Drops text less) :
    less.filter (· != ' ') = text.filter (· != ' ') := by
  induction run with
  | refl => rfl
  | tail _ step ih =>
      obtain ⟨before, after, rfl, rfl, -⟩ := step
      rw [← ih]
      simp

/-- A text that ends with a solid character and has lost spaces is not the beginning of what is left of it, whatever
follows. -/
theorem not_prefix_of_run {text less rest : List Char} (run : ReflTransGen Drops text less) (lost : less ≠ text)
    (last : ∃ c, text.getLast? = some c ∧ c ≠ ' ') : ¬ text <+: less ++ rest := by
  intro opens
  have shorter := (run_sublist run).length_le
  obtain ⟨more, whole⟩ : less <+: text :=
    List.prefix_of_prefix_length_le (List.prefix_append less rest) opens shorter
  have blank : ∀ c ∈ more, c = ' ' := by
    have solid := run_solid run
    rw [← whole, List.filter_append] at solid
    have none := List.filter_eq_nil_iff.mp (List.self_eq_append_right.mp solid)
    exact fun c member => by simpa using none c member
  rcases List.eq_nil_or_concat' more with rfl | ⟨more, c, rfl⟩
  · exact lost (by rw [← whole, List.append_nil])
  · obtain ⟨d, last, solid⟩ := last
    obtain rfl : c = ' ' := blank c (by simp)
    rw [← whole, ← List.append_assoc, List.getLast?_concat] at last
    exact solid (Option.some.inj last).symm

end Spacing

end Accessors
