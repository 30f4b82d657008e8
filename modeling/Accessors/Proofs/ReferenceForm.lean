import Accessors.Proofs.PlannedOutputs
import Accessors.Proofs.ReferenceTexts
import Accessors.Token.Text

/-!
Which texts are references. A reference should be the names of a module with separators between them, a dot, and
the name of a type. The parser leaves the two parts to the lexer and to the grammar of paths, which read more than
that: white space and comments between tokens, a separator in front, arguments, and one reserved word. In a text
without these, of which each character belongs to a name, a separator or the dot, the lexer drops nothing, so that
what it reads as names is all of the text.
-/

namespace Accessors

open Text (isIdentContinue isBlank)

namespace Lexer

/-- The characters that names with separators and dots are written in. -/
def Plain (c : Char) : Prop := c ∈ ['.', ':', '#'] ∨ isIdentContinue c = true

instance (c : Char) : Decidable (Plain c) := inferInstanceAs (Decidable (_ ∨ _))

/-- Characters to which the lexer gives a meaning of their own. -/
def strangers : List Char := "/'<([{)]}".toList ++ [0x200e, 0x200f, 0xfeff].map Char.ofNat

theorem strangers_not_plain : ∀ c ∈ strangers, ¬ Plain c := each_of_all (by decide +kernel)

theorem no_gap_of_plain {c : Char} (plain : Plain c) : isGap c = false := by
  have noBlank : isBlank c = false := by
    rw [Bool.eq_false_iff]
    intro blank
    rcases plain with mark | continues
    · simp only [List.mem_cons, List.not_mem_nil, or_false] at mark
      rcases mark with rfl | rfl | rfl <;> cases blank
    · exact absurd continues (by simp [Text.ident_continue_of_blank blank])
  have direction (n : Nat) (listed : Char.ofNat n ∈ strangers) : c.toNat ≠ n := by
    intro same
    apply strangers_not_plain _ listed
    rwa [← same, Char.ofNat_toNat]
  simp [isGap, noBlank, direction 0x200e (by decide), direction 0x200f (by decide)]

theorem apart_from_stranger {c d : Char} (plain : Plain c) (strange : d ∈ strangers) : c ≠ d := by
  rintro rfl
  exact strangers_not_plain c strange plain

theorem comment_length_of_head {c : Char} {rest : List Char} (noSlash : c ≠ '/') : commentLength (c :: rest) = 0 := by
  unfold commentLength
  split <;> simp_all

theorem doc_comment_of_head {c : Char} {rest : List Char} (noSlash : c ≠ '/') : docComment? (c :: rest) = none := by
  unfold docComment?
  split <;> simp_all

theorem no_delimiter_of_plain {c : Char} (plain : Plain c) :
    Delimiter.ofOpening? c = none ∧ Delimiter.ofClosing? c = none := by
  have apart (d : Char) (strange : d ∈ strangers) := apart_from_stranger plain strange
  constructor
  · unfold Delimiter.ofOpening?
    split
    · exact absurd rfl (apart '(' (by decide))
    · exact absurd rfl (apart '[' (by decide))
    · exact absurd rfl (apart '\x7b' (by decide))
    · rfl
  · unfold Delimiter.ofClosing?
    split
    · exact absurd rfl (apart ')' (by decide))
    · exact absurd rfl (apart ']' (by decide))
    · exact absurd rfl (apart '\x7d' (by decide))
    · rfl

/-- Of a plain text nothing is dropped: its tokens, none of which is a delimiter, are written as the text. -/
theorem tokens_from_plain {most : Nat} {text : List Char} {pos : Pos} {opened : List (Delimiter × Pos)}
    {done tokens : List Token} (plain : ∀ c ∈ text, Plain c)
    (lexed : tokensFrom most text pos opened done = .ok tokens) :
    ∃ more, tokens = done.reverse ++ more ∧ more.flatMap (·.lexeme.text) = text
      ∧ ∀ token ∈ more, ∀ d, token.lexeme ≠ .opening d ∧ token.lexeme ≠ .closing d := by
  induction most generalizing text pos done with
  | zero => cases lexed
  | succ most ih =>
      cases text with
      | nil =>
          unfold tokensFrom at lexed
          have noDoc : docComment? [] = none := rfl
          simp only [gapLength, List.drop_nil, noDoc] at lexed
          cases opened with
          | nil =>
              obtain rfl := Except.ok.inj lexed
              exact ⟨[], by simp⟩
          | cons _ _ => cases lexed
      | cons c rest =>
          have here := plain c List.mem_cons_self
          have noSlash : c ≠ '/' := apart_from_stranger here (by decide)
          have noGap : gapLength (most + 1) (c :: rest) = 0 := by
            simp [gapLength, no_gap_of_plain here, comment_length_of_head noSlash]
          obtain ⟨noOpening, noClosing⟩ := no_delimiter_of_plain here
          unfold tokensFrom at lexed
          simp only [noGap, List.drop_zero, doc_comment_of_head noSlash, noOpening, noClosing] at lexed
          cases leaf : leaf? (c :: rest) with
          | none =>
              rw [leaf] at lexed
              cases lexed
          | some found =>
              obtain ⟨lexeme, n⟩ := found
              rw [leaf] at lexed
              obtain ⟨spelled, single⟩ := text_of_leaf leaf
              have behind : ∀ d ∈ (c :: rest).drop n, Plain d := fun d member => plain d (List.mem_of_mem_drop member)
              obtain ⟨more, shape, texts, others⟩ := ih behind lexed
              refine ⟨⟨lexeme, pos.after ((c :: rest).take 0)⟩ :: more, ?_, ?_, List.forall_mem_cons.mpr ⟨single, others⟩⟩
              · rw [shape]
                simp
              · rw [List.flatMap_cons, texts, spelled, List.take_append_drop]

theorem tokens_of_plain {text : String} {tokens : List Token} (plain : ∀ c ∈ text.toList, Plain c)
    (lexed : Lexer.tokens text = .ok tokens) :
    tokens.flatMap (·.lexeme.text) = text.toList
      ∧ ∀ token ∈ tokens, ∀ d, token.lexeme ≠ .opening d ∧ token.lexeme ≠ .closing d := by
  unfold Lexer.tokens at lexed
  split at lexed
  · next c rest shape =>
      rw [shape] at plain ⊢
      have noMark : c ≠ byteOrderMark := apart_from_stranger (plain c List.mem_cons_self) (by decide)
      rw [if_neg noMark] at lexed
      obtain ⟨more, rfl, texts, flat⟩ := tokens_from_plain plain lexed
      exact ⟨texts, flat⟩
  · next empty =>
      obtain rfl := Except.ok.inj lexed
      rw [empty]
      exact ⟨rfl, by simp⟩

end Lexer

namespace TokenTree

/-- What a tree is written as, the inside of groups apart. -/
def text : TokenTree → List Char
  | leaf lexeme => lexeme.text
  | group _ _ => []

/-- Lexemes without delimiters are trees by themselves. -/
theorem of_lexemes_flat {lexemes : List Lexeme} (flat : ∀ l ∈ lexemes, ∀ d, l ≠ .opening d ∧ l ≠ .closing d) :
    ofLexemes lexemes = lexemes.map leaf := by
  have pushed : lexemes.foldr Forest.push ⟨[], []⟩ = ⟨lexemes.map leaf, []⟩ := by
    induction lexemes with
    | nil => rfl
    | cons l rest ih =>
        obtain ⟨first, others⟩ := List.forall_mem_cons.mp flat
        rw [List.foldr_cons, ih others]
        cases l with
        | opening d => exact absurd rfl (first d).1
        | closing d => exact absurd rfl (first d).2
        | _ => rfl
  rw [ofLexemes, pushed]

end TokenTree

namespace Ident

theorem path_cons (name next : Ident) (rest : List Ident) :
    (path (name :: next :: rest)).toList = name.text.toList ++ [':', ':'] ++ (path (next :: rest)).toList := by
  rw [path, List.map_cons, Text.join_cons_to_list _ _ (by simp), List.append_assoc]
  rfl

theorem path_single (name : Ident) : path [name] = name.text := by
  simp [path, Text.join]

/-- Between separators a path has its names, and nothing else. -/
theorem split_path {names : List Ident} (some : names ≠ []) :
    (Text.splitAt ':' (path names).toList).filter (· ≠ []) = names.map (·.text.toList) := by
  induction names with
  | nil => exact absurd rfl some
  | cons name more ih =>
      have alone : Text.splitAt ':' name.text.toList = [name.text.toList] :=
        Text.splitAt_of_notMem (name.lacks (by decide) (by decide))
      have whole : name.text.toList ≠ [] := name.whole.1
      cases more with
      | nil => simp [path_single, alone, whole]
      | cons next rest =>
          have later := ih (List.cons_ne_nil next rest)
          have empty : Text.splitAt ':' [] = [[]] := rfl
          have shape : (path (name :: next :: rest)).toList
              = name.text.toList ++ ':' :: ([] ++ ':' :: (path (next :: rest)).toList) := by
            rw [path_cons]
            simp
          rw [shape, Text.splitAt_append, Text.splitAt_append, alone, empty, List.filter_append, List.filter_append,
            later]
          simp [whole]

end Ident

namespace Parsing

variable {c : Cursor} {n : Nat}

theorem colons_shape {ts : List TokenTree} (ahead : Ahead.colons ts = true) :
    ∃ joint, ts = .leaf (.punct ':' true) :: .leaf (.punct ':' joint) :: ts.drop 2 := by
  match ts, ahead with
  | .leaf (.punct first joint) :: rest, ahead =>
      have parts : (':' = first ∧ joint = true) ∧ Ahead.op [':'] rest = true := by
        simpa [Ahead.colons, Ahead.op] using ahead
      obtain ⟨⟨rfl, rfl⟩, second⟩ := parts
      obtain ⟨joint, more, rfl⟩ := mark_of_op second
      exact ⟨joint, rfl⟩

/-- Without an angle bracket there are no arguments. -/
theorem no_angle_args {ts : List TokenTree} (noAngle : ∀ joint, .leaf (.punct '<' joint) ∉ ts) :
    Ahead.angleArgs false ts = false := by
  have absent (ts : List TokenTree) (none : ∀ joint, .leaf (.punct '<' joint) ∉ ts) : Ahead.op ['<'] ts = false := by
    rw [Bool.eq_false_iff]
    intro mark
    obtain ⟨joint, rest, rfl⟩ := mark_of_op mark
    exact none joint List.mem_cons_self
  have behind := absent (ts.drop 2) fun joint member => noAngle joint (List.mem_of_mem_drop member)
  rw [Ahead.angleArgs, absent ts noAngle, behind]
  simp

/-- A segment without arguments is its name. -/
theorem yields_bare_segment (noAngle : ∀ joint, .leaf (.punct '<' joint) ∉ c.rest) :
    Yields (segment false) (rules n) c fun s c' =>
      ∃ name, s = .plain name ∧ name.Names ∧ c.rest = .leaf (.ident name) :: c'.rest := by
  intro s c' ran
  obtain ⟨-, after, front⟩ := yields_segment (sound_rules n) s c' ran
  have ends : Ahead.angleArgs false after = false := by
    apply no_angle_args
    intro joint member
    apply noAngle joint
    rw [front]
    exact List.mem_cons_of_mem _ member
  obtain ⟨shape, names, rfl⟩ := yields_name front ends s c' ran
  exact ⟨s.name, shape, names, front⟩

/-- Segments without arguments are read from precisely the text of their path. -/
theorem yields_bare_segments (noAngle : ∀ joint, .leaf (.punct '<' joint) ∉ c.rest) (count : Nat) :
    Yields (segmentRounds false count) (rules n) c fun _ c' =>
      ∃ names, names ≠ [] ∧ (∀ name ∈ names, name.Names)
        ∧ c.rest.flatMap TokenTree.text = (Ident.path names).toList ++ c'.rest.flatMap TokenTree.text := by
  induction count generalizing c with
  | zero => exact Yields.fail
  | succ count ih =>
      refine Yields.bind (yields_bare_segment noAngle) ?_
      rintro s c' ⟨name, -, may, front⟩
      refine Yields.ifAhead (fun more => ?_) fun _ => Yields.pure ?_
      · have colons : Yields (takeOp [':', ':']) (rules n) c' fun _ d =>
            c'.rest.flatMap TokenTree.text = [':', ':'] ++ d.rest.flatMap TokenTree.text
              ∧ ∀ joint, .leaf (.punct '<' joint) ∉ d.rest := by
          have separated : Ahead.colons c'.rest = true := by
            simp only [Bool.and_eq_true] at more
            exact more.1
          obtain ⟨joint, shape⟩ := colons_shape separated
          refine Yields.ifAhead (fun _ => ?_) fun _ => Yields.fail
          intro _ d ran
          cases ran
          constructor
          · rw [shape]
            simp [TokenTree.text, Lexeme.text, Cursor.skip]
          · intro joint member
            apply noAngle joint
            rw [front]
            exact List.mem_cons_of_mem _ (List.mem_of_mem_drop member)
        refine Yields.bind colons fun _ d behind => ?_
        refine Yields.bind (ih behind.2) fun path c'' later => Yields.pure ?_
        obtain ⟨names, some, each, texts⟩ := later
        refine ⟨name :: names, List.cons_ne_nil _ _, List.forall_mem_cons.mpr ⟨may, each⟩, ?_⟩
        obtain ⟨next, rest, rfl⟩ := List.exists_cons_of_ne_nil some
        rw [front, List.flatMap_cons, behind.1, texts, Ident.path_cons]
        simp [TokenTree.text, Lexeme.text]
      · refine ⟨[name], List.cons_ne_nil _ _, by simpa using may, ?_⟩
        rw [front, List.flatMap_cons, Ident.path_single]
        rfl

/-! Plain texts that are read as a path or as an identifier. -/

variable {α : Type} {p : Parser α} {a : α} {text : String}

/-- What is parsed from a plain text is read from lexemes that are written as the text, up to their end. -/
theorem run_of_plain (plain : ∀ c ∈ text.toList, Lexer.Plain c) (parsed : parse p text = .ok a) :
    ∃ n trees c', p.run (rules n) (.start trees) = some (.ok (a, c')) ∧ c'.rest = []
      ∧ trees.flatMap TokenTree.text = text.toList ∧ ∀ joint, .leaf (.punct '<' joint) ∉ trees := by
  rw [parse] at parsed
  cases lexed : Lexer.tokens text with
  | error place =>
      rw [lexed] at parsed
      cases parsed
  | ok tokens =>
      rw [lexed] at parsed
      obtain ⟨read, ran⟩ := parse_tokens_ok_iff.mp (show parseTokens p tokens = .ok a from parsed)
      obtain ⟨texts, flat⟩ := Lexer.tokens_of_plain plain lexed
      rw [TokenTree.of_lexemes_flat (List.forall_mem_map.mpr flat)] at ran
      have spelled : ((tokens.map (·.lexeme)).map TokenTree.leaf).flatMap TokenTree.text = text.toList := by
        rw [← texts, List.flatMap_map, List.flatMap_map]
        rfl
      refine ⟨_, _, _, ran, rfl, spelled, fun joint member => ?_⟩
      have written : '<' ∈ text.toList := by
        rw [← spelled]
        exact List.mem_flatMap.mpr ⟨_, member, List.mem_singleton_self _⟩
      exact Lexer.strangers_not_plain '<' (by decide) (plain '<' written)

/-- A plain text that is read as a path is a path of names, unless a separator leads it. -/
theorem names_of_plain (plain : ∀ c ∈ text.toList, Lexer.Plain c) (unrooted : ¬ [':', ':'] <+: text.toList)
    {read : Bool × List Segment} (parsed : pathText text = .ok read) :
    ∃ names, names ≠ [] ∧ (∀ name ∈ names, name.Names) ∧ text = Ident.path names := by
  rw [path_text_eq] at parsed
  obtain ⟨n, trees, c', ran, ended, texts, noAngle⟩ := run_of_plain plain parsed
  have yields : Yields wholePath (rules n) (.start trees) fun _ c' =>
      ∃ names, names ≠ [] ∧ (∀ name ∈ names, name.Names)
        ∧ trees.flatMap TokenTree.text = (Ident.path names).toList ++ c'.rest.flatMap TokenTree.text := by
    refine Yields.bind Yields.someOp ?_
    rintro rooted c'' ⟨seen, stays⟩
    cases rooted with
    | true =>
        have ahead : Ahead.colons trees = true := seen.symm
        obtain ⟨joint, shape⟩ := colons_shape ahead
        refine absurd ⟨(trees.drop 2).flatMap TokenTree.text, ?_⟩ unrooted
        rw [← texts, shape]
        simp [TokenTree.text, Lexeme.text]
    | false =>
        obtain rfl := stays rfl
        exact Yields.bind (Yields.get (yields_bare_segments noAngle _)) fun path _ found => Yields.pure found
  obtain ⟨names, some, each, shape⟩ := yields read c' ran
  refine ⟨names, some, each, String.toList_inj.mp ?_⟩
  rw [← texts, shape, ended]
  simp

/-- A plain text that is read as an identifier is that identifier. -/
theorem ident_of_plain (plain : ∀ c ∈ text.toList, Lexer.Plain c) (accepted : isIdentText text = true) :
    ∃ name : Ident, name.Free ∧ text = name.text := by
  unfold isIdentText at accepted
  cases parsed : parse takeIdent text with
  | error place =>
      rw [parsed] at accepted
      cases accepted
  | ok name =>
      obtain ⟨n, trees, c', ran, ended, texts, -⟩ := run_of_plain plain parsed
      obtain ⟨-, after, front⟩ := Yields.ident name c' ran
      obtain ⟨-, free, behind⟩ := yields_free front name c' ran
      refine ⟨name, free, String.toList_inj.mp ?_⟩
      have shape : trees = .leaf (.ident name) :: after := front
      rw [← texts, shape, ← behind, ended]
      simp [TokenTree.text, Lexeme.text]

end Parsing

/-! References. -/

namespace TypeReference

/-- A text that is a reference by the rule: names, each an identifier or a word for a module, with separators between
them, a dot, and an identifier. -/
def Form (text : String) (r : TypeReference) : Prop :=
  ∃ (names : List Ident) (name : Ident), names ≠ [] ∧ (∀ n ∈ names, n.Heads) ∧ name.Free
    ∧ text = Ident.path names ++ "." ++ name.text ∧ r = ⟨Ident.path names, name.text⟩

/-- A text without what the parser takes beyond the rule. -/
structure Bare (text : String) (r : TypeReference) : Prop where
  /-- No white space, no comments, no brackets. -/
  plain : ∀ c ∈ text.toList, Lexer.Plain c
  unrooted : ¬ [':', ':'] <+: text.toList
  /-- No name of the module is the reserved word that the grammar of paths lets through. -/
  tried : "try".toList ∉ Text.splitAt ':' r.modulePath.toList

-- The characters are gone through in a list, since a search for the instance may go through all that there are.
instance (text : String) (r : TypeReference) : Decidable (Bare text r) :=
  decidable_of_iff (text.toList.all (fun c => decide (Lexer.Plain c)) = true ∧ ¬ [':', ':'] <+: text.toList
      ∧ "try".toList ∉ Text.splitAt ':' r.modulePath.toList)
    ⟨fun bare => ⟨Lexer.each_of_all bare.1, bare.2.1, bare.2.2⟩,
      fun bare => ⟨List.all_eq_true.mpr fun c among => decide_eq_true (bare.plain c among), bare.unrooted, bare.tried⟩⟩

variable {text : String} {r : TypeReference}

/-- White space is not plain. -/
theorem trim_of_plain (plain : ∀ c ∈ text.toList, Lexer.Plain c) : Text.trim text = text := by
  apply Text.trim_of_solid
  intro c member
  have solid := Lexer.no_gap_of_plain (plain c member)
  simp only [Lexer.isGap, Bool.or_eq_false_iff] at solid
  exact solid.1.1

theorem bare_of_form (form : Form text r) : Bare text r := by
  obtain ⟨names, name, some, each, free, rfl, rfl⟩ := form
  refine ⟨written_chars names name, ?_, ?_⟩
  · obtain ⟨first, more, rfl⟩ := List.exists_cons_of_ne_nil some
    obtain ⟨c, rest, shape, opens⟩ := Lexer.word_opens first
    rintro ⟨behind, same⟩
    have front : ∃ after, (Ident.path (first :: more) ++ "." ++ name.text).toList = c :: after := by
      cases more with
      | nil => simp [Ident.path_single, shape]
      | cons next rest => simp [Ident.path_cons, shape]
    obtain ⟨after, front⟩ := front
    rw [front] at same
    obtain rfl := (List.cons.inj same).1
    exact absurd opens (by simp [Lexer.not_ident_start_of_punct ':' (by decide)])
  · intro member
    have listed : "try".toList ∈ (Text.splitAt ':' (Ident.path names).toList).filter (· ≠ []) :=
      List.mem_filter.mpr ⟨member, by decide⟩
    rw [Ident.split_path some] at listed
    obtain ⟨n, among, same⟩ := List.mem_map.mp listed
    have word : n.text = "try" := String.toList_inj.mp same
    rcases each n among with free | path
    · exact free (by rw [word]; decide)
    · rw [word] at path
      revert path
      decide

/-- What is a reference by the rule is accepted. -/
theorem parse_of_form {s : String} (form : Form (Text.trim s) r) : parse s = .ok r := by
  have again : Text.trim (Text.trim s) = Text.trim s := trim_of_plain (bare_of_form form).plain
  have trimmed : parse (Text.trim s) = parse s := by simp only [parse, again]
  obtain ⟨names, name, some, each, free, written, shape⟩ := form
  rw [← trimmed, written]
  exact (parse_written_iff some).mpr ⟨fun n among => Or.inl (each n among), free, shape⟩

/-- A text is a reference by the rule just if the parser takes it for that reference and it is bare: what the parser
takes beyond the rule has white space or a comment between its tokens, a separator in front, arguments, or the word
`try` for a module. -/
theorem form_iff_parsed_bare (s : String) (r : TypeReference) :
    Form (Text.trim s) r ↔ parse s = .ok r ∧ Bare (Text.trim s) r := by
  constructor
  · intro form
    exact ⟨parse_of_form form, bare_of_form form⟩
  · rintro ⟨parsed, bare⟩
    unfold parse at parsed
    obtain ⟨path, type, cut, -, -, ident, module, rfl⟩ := of_trimmed_ok.mp (Outcome.map_error_ok.mp parsed)
    have whole := Text.append_of_splitAtLast? cut
    have ofPath : ∀ c ∈ path, Lexer.Plain c := fun c member =>
      bare.plain c (by rw [whole]; exact List.mem_append_left _ member)
    have ofType : ∀ c ∈ type, Lexer.Plain c := fun c member =>
      bare.plain c (by rw [whole]; exact List.mem_append_right _ (List.mem_cons_of_mem _ member))
    obtain ⟨name, free, named⟩ := Parsing.ident_of_plain (by simpa using ofType) ident
    have unrooted : ¬ [':', ':'] <+: (String.ofList path).toList := by
      rw [String.toList_ofList]
      intro leads
      apply bare.unrooted
      rw [whole]
      exact leads.trans (List.prefix_append _ _)
    cases read : Parsing.pathText (String.ofList path) with
    | error place =>
        rw [read] at module
        cases module
    | ok found =>
        obtain ⟨names, some, each, joined⟩ := Parsing.names_of_plain (by simpa using ofPath) unrooted read
        refine ⟨names, name, some, fun n among => ?_, free, ?_, ?_⟩
        · rcases each n among with heads | word
          · exact heads
          · refine absurd ?_ bare.tried
            have listed : n.text.toList ∈ (Text.splitAt ':' (Ident.path names).toList).filter (· ≠ []) := by
              rw [Ident.split_path some]
              exact List.mem_map_of_mem among
            rw [word] at listed
            rw [joined]
            exact (List.mem_filter.mp listed).1
        · apply String.toList_inj.mp
          rw [whole, ← joined, ← named]
          simp
        · rw [joined, named]

/-- Texts that are no references by the rule and are accepted: with white space in front of the name, a comment behind
it, a separator in front, arguments, and a reserved word for a module. -/
def loose : List (String × TypeReference) :=
  [("crate. T", ⟨"crate", " T"⟩), ("crate.T/**/", ⟨"crate", "T/**/"⟩), ("::a.T", ⟨"::a", "T"⟩),
    ("a<u8>.T", ⟨"a<u8>", "T"⟩), ("try.T", ⟨"try", "T"⟩)]

theorem loose_accepted : ∀ sample ∈ loose, parse sample.1 = .ok sample.2 ∧ ∀ r, ¬ Form (Text.trim sample.1) r := by
  have read : ∀ sample ∈ loose, (parse sample.1).toOption = some sample.2 := by decide +kernel
  have marred : ∀ sample ∈ loose, ¬ Bare (Text.trim sample.1) sample.2 := by decide +kernel
  intro sample listed
  have parsed := Outcome.to_option_some.mp (read sample listed)
  refine ⟨parsed, fun r form => marred sample listed ?_⟩
  obtain rfl : sample.2 = r := Except.ok.inj (parsed.symm.trans (parse_of_form form))
  exact bare_of_form form

/-- A name with a space in front of it is accepted, and the space is part of the name from there on. -/
theorem spaced_reference_accepted :
    parse "crate. T" = .ok ⟨"crate", " T"⟩ ∧ ¬ ∃ r, Form (Text.trim "crate. T") r := by
  obtain ⟨parsed, none⟩ := loose_accepted ("crate. T", ⟨"crate", " T"⟩) (by simp [loose])
  exact ⟨parsed, fun ⟨r, form⟩ => none r form⟩

end TypeReference

end Accessors
