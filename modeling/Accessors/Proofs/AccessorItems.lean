import Accessors.Proofs.AccessorMembers
import Accessors.Proofs.BorderedItems
import Accessors.Proofs.ParsedText

/-!
Implementations as items of a file. The head of an implementation that was read alone is read in front of other members,
and its type is read where it stands: behind an ampersand, if it may be referred to, and as the last input.
-/

namespace Accessors.Parsing

variable {n m : Nat} {type ts after : List TokenTree} {t : Ty} {joint : Bool}

/-! Types. -/

/-- All of the trees are read as a type. -/
def IsType (n : Nat) (type : List TokenTree) (t : Ty) : Prop :=
  ∃ read, (typeOf true).run (rules n) (.start type) = some (.ok (t, ⟨[], none, read⟩))

/-- All of the trees behind an ampersand are read as a type that is referred to. -/
def IsReferred (n : Nat) (type : List TokenTree) (t : Ty) : Prop :=
  ∃ read, referred.run (rules n) (.start type) = some (.ok (.reference none false t, ⟨[], none, read⟩))

/-- The end of a group. -/
def endBorder : Border := ⟨[], [], Or.inl rfl, Or.inl ⟨rfl, rfl⟩⟩

/-- The end of a group, with a block there elsewhere. -/
def blockBorder (inside after : List TokenTree) : Border :=
  ⟨[], .group .brace inside :: after, Or.inl rfl, Or.inr ⟨inside, after, rfl⟩⟩

variable {s : Border}

/-- What ends with its group ends at what stands at the border elsewhere. -/
theorem moved (ended : s.near = []) (type : List TokenTree) (read under : List Lexeme) :
    s.move under ⟨type, none, read⟩ = ⟨type ++ s.far, none, read ++ under⟩ :=
  Border.move_of_append (by simp [ended])

theorem before_end (ended : s.near = []) (read : List Lexeme) : s.Before ⟨[], none, read⟩ :=
  ⟨by rw [ended], rfl⟩

theorem IsType.answers (is : IsType n type t) (le : n ≤ m) (ended : s.near = []) :
    Answers (typeOf true) (rules m) (type ++ s.far) (some (t, s.far)) := by
  obtain ⟨read, ran⟩ := is
  obtain ⟨-, step⟩ := (rules_carrying s n).typeOf true t _ ran (before_end ended read)
  intro under
  have here := (typeOf true).stable (rules_extend le) _ _ (step under)
  rw [Cursor.start, moved ended, moved ended] at here
  exact ⟨_, here⟩

/-- No type begins with three dots. -/
theorem IsType.no_dots (is : IsType n type t) : Ahead.op ['.', '.', '.'] type = false := by
  obtain ⟨read, ran⟩ := is
  rw [Bool.eq_false_iff]
  intro dots
  match type, dots with
  | .leaf (.punct d joint) :: rest, dots =>
      obtain rfl : '.' = d := by
        have first := (Bool.and_eq_true_iff.mp (Bool.and_eq_true_iff.mp dots).1).1
        exact beq_iff_eq.mp first
      cases ran

theorem IsReferred.answers (is : IsReferred n type t) (joint : Bool) (le : n ≤ m) (ended : s.near = []) :
    Answers (typeOf true) (rules m) (markTree '&' joint :: (type ++ s.far)) (some (.reference none false t, s.far)) := by
  obtain ⟨read, ran⟩ := is
  obtain ⟨-, step⟩ := (rules_carrying s n).reference _ _ ran (before_end ended read)
  intro under
  have here := referred.stable (rules_extend le) _ _ (step (.punct '&' false :: under))
  rw [Cursor.start, moved ended, moved ended] at here
  exact ⟨_, here⟩

/-- What is a type and may not be referred to stops at a plus sign behind an ampersand. -/
theorem IsType.stuck (is : IsType n type t) (other : ¬IsReferred (n + 1) type t) (joint : Bool) (less : n < m)
    (ended : s.near = []) (read : List Lexeme) : Yields (typeOf true) (rules m) ⟨markTree '&' joint :: (type ++ s.far), none, read⟩
      fun _ c' => AtPlus c' := by
  obtain ⟨last, ran⟩ := is
  obtain ⟨-, narrow⟩ := referred_narrows ran (before_end ended last)
  have stuck := narrow.resolve_left (fun refers => other ⟨last, refers⟩) m less (.punct '&' false :: read)
  rw [Cursor.start, moved ended] at stuck
  exact stuck

/-- A type behind an ampersand is read to its end exactly if it may be referred to. -/
theorem isReferred_iff (is : IsType n type t) (less : n < m) : IsReferred (n + 1) type t
    ↔ ∃ read, (typeOf true).run (rules m) (.start (markTree '&' joint :: type)) = some (.ok (.reference none false t, ⟨[], none, read⟩)) := by
  constructor
  · intro refers
    obtain ⟨read, ran⟩ := refers.answers (s := endBorder) joint less rfl []
    simp only [endBorder, List.append_nil] at ran
    exact ⟨read, ran⟩
  · rintro ⟨read, ran⟩
    by_contra other
    have plus := is.stuck (s := endBorder) other joint less rfl []
    simp only [endBorder, List.append_nil] at plus
    cases plus _ _ ran

/-! Accessors. -/

/-- The accessors of a field: what is written around its type and its selector. -/
def accessorTrees (getter setter : Ident) (joint : Bool) (type : List TokenTree) (l : Lexeme) : List TokenTree :=
  (getterHead getter ++ markTree '&' joint :: (type ++ [.group .brace (getterBody l)]))
    ++ (setterHead setter type ++ [.group .brace (setterBody l)])

def getterOf (getter : Ident) (t : Ty) : FnDecl := ⟨getter, [.receiver], some (.reference none false t)⟩

def setterOf (setter : Ident) (t : Ty) : FnDecl := ⟨setter, [.receiver, .typed t], none⟩

variable {name : String} {l : Lexeme} {getter setter : Ident} {x : Option Unit}

/-- The accessors are read if the field can be selected and its type can be referred to. -/
theorem accessors_answers (freeGetter : getter.text ∉ reserved) (freeSetter : setter.text ∉ reserved) (selector : Selector name l)
    (is : IsType n type t) (readable : x = some () ↔ Selectable name ∧ IsReferred (n + 1) type t) (less : n < m + 4) :
    Answers (plainList implMember) (rules (m + 5)) (accessorTrees getter setter joint type l)
      (x.map fun _ => ([some (getterOf getter t), some (setterOf setter t)], [])) := by
  classical
  obtain ⟨selected, selects⟩ : ∃ selected, Selects name selected :=
    ⟨if Selectable name then some () else none, by simp [Selects]⟩
  obtain ⟨referred, refers⟩ : ∃ referred : Option Unit, referred = some () ↔ IsReferred (n + 1) type t :=
    ⟨if IsReferred (n + 1) type t then some () else none, by simp⟩
  have both : x = some () ↔ selected = some () ∧ referred = some () := readable.trans (and_congr selects.symm refers.symm)
  have getters : ∀ after, Answers implMember (rules (m + 5))
      (getterHead getter ++ markTree '&' joint :: (type ++ [.group .brace (getterBody l)]) ++ after)
      ((selected.bind fun _ => referred.map fun _ => some (getterOf getter t)).map (·, after)) := by
    intro after
    rw [List.append_assoc, List.cons_append, List.append_assoc]
    by_cases narrow : IsReferred (n + 1) type t
    · obtain rfl : referred = some () := refers.mpr narrow
      have read := getter_answers freeGetter selector selects (narrow.answers (s := blockBorder (getterBody l) after) joint less rfl)
      cases selected <;> exact read
    · obtain rfl : referred = none := by
        cases referred with
        | none => rfl
        | some u => exact absurd (refers.mp rfl) narrow
      have stuck := getter_stuck freeGetter (is.stuck (s := blockBorder (getterBody l) after) narrow joint less rfl)
      cases selected <;> exact stuck
  have setters : ∀ after, Answers implMember (rules (m + 5)) (setterHead setter type ++ [.group .brace (setterBody l)] ++ after)
      ((selected.map fun _ => some (setterOf setter t)).map (·, after)) := by
    intro after
    rw [List.append_assoc]
    have input := is.answers (s := endBorder) (Nat.le_of_lt less) rfl
    simp only [endBorder, List.append_nil] at input
    have read := setter_answers freeSetter selector selects is.no_dots input after
    cases selected <;> exact read
  have pair := Answers.plainPair ⟨List.cons_ne_nil _ _, List.cons_ne_nil _ _⟩ getters setters
  cases x with
  | some u =>
      obtain ⟨rfl, rfl⟩ := both.mp rfl
      exact pair
  | none =>
      cases selected with
      | none => exact pair
      | some u =>
          cases referred with
          | none => exact pair
          | some v => exact absurd (both.mpr ⟨rfl, rfl⟩) (by simp)

/-! Implementations. -/

theorem word_shape {w : String} (word : Ahead.word w ts = true) :
    ∃ (name : Ident) (rest : List TokenTree), name.text = w ∧ ts = .leaf (.ident name) :: rest := by
  match ts, word with
  | .leaf (.ident name) :: rest, word => exact ⟨name, rest, beq_iff_eq.mp word, rfl⟩

def implIdent : Ident := ⟨"impl", impl_words_spelled _ (by decide)⟩

def unsafeIdent : Ident := ⟨"unsafe", impl_words_spelled _ (by decide)⟩

def defaultIdent : Ident := ⟨"default", impl_words_spelled _ (by decide)⟩

/-- What may stand before the word of an implementation. -/
def implFronts : List (List TokenTree) :=
  [[], [wordTree unsafeIdent], [wordTree defaultIdent], [wordTree defaultIdent, wordTree unsafeIdent]]

def OpensImpl (ts : List TokenTree) : Prop := ∃ front ∈ implFronts, ∃ rest, ts = front ++ wordTree implIdent :: rest

theorem ident_eq {name : Ident} {text : String} (same : name.text = text)
    (whole : text.toList ≠ [] ∧ Lexer.identLength text.toList = text.toList.length) : name = ⟨text, whole⟩ := by
  cases name
  cases same
  rfl

theorem opens_of_implItem {r : Rules} {decl : ImplDecl} {c' : Cursor} (ran : implItem.run r (.start ts) = some (.ok (decl, c'))) :
    OpensImpl ts := by
  have never : ¬ Answers implItem r ts none := fun none => none [] decl c' ran
  have impl : ∀ {ts} {next : Unit → Parser ImplDecl}, ¬ Answers (takeWord "impl" >>= next) r ts none →
      ∃ rest, ts = wordTree implIdent :: rest := by
    intro ts next some
    cases word : Ahead.word "impl" ts with
    | false => exact absurd (Answers.bindNone (Answers.stuckWord word)) some
    | true =>
        obtain ⟨name, rest, same, rfl⟩ := word_shape word
        exact ⟨rest, by rw [ident_eq same implIdent.whole]; rfl⟩
  cases default : Ahead.word "default" ts with
  | false =>
      cases hazard : Ahead.word "unsafe" ts with
      | false =>
          obtain ⟨rest, rfl⟩ := impl fun none => never (Answers.bind (Answers.noWord default) (Answers.bind (Answers.noWord hazard) none))
          exact ⟨_, List.mem_cons_self, rest, rfl⟩
      | true =>
          obtain ⟨name, ts, same, rfl⟩ := word_shape hazard
          obtain ⟨rest, rfl⟩ := impl fun none => never (Answers.bind (Answers.noWord default) (Answers.bind (Answers.someWord same ts) none))
          exact ⟨[wordTree unsafeIdent], by simp [implFronts], rest, by rw [ident_eq same unsafeIdent.whole]; rfl⟩
  | true =>
      obtain ⟨name, ts, same, rfl⟩ := word_shape default
      cases hazard : Ahead.word "unsafe" ts with
      | false =>
          obtain ⟨rest, rfl⟩ := impl fun none => never (Answers.bind (Answers.someWord same ts) (Answers.bind (Answers.noWord hazard) none))
          exact ⟨[wordTree defaultIdent], by simp [implFronts], rest, by rw [ident_eq same defaultIdent.whole]; rfl⟩
      | true =>
          obtain ⟨name', ts, same', rfl⟩ := word_shape hazard
          obtain ⟨rest, rfl⟩ := impl fun none => never (Answers.bind (Answers.someWord same _) (Answers.bind (Answers.someWord same' ts) none))
          exact ⟨[wordTree defaultIdent, wordTree unsafeIdent], by simp [implFronts], rest, by
            rw [ident_eq same defaultIdent.whole, ident_eq same' unsafeIdent.whole]
            rfl⟩

/-- The words stand before the block. -/
theorem OpensImpl.behind {head : List TokenTree} {d : Delimiter} {inside : List TokenTree} (opens : OpensImpl (head ++ [.group d inside]))
    (more : List TokenTree) : OpensImpl (head ++ more) := by
  obtain ⟨front, listed, rest, shape⟩ := opens
  rcases rest.eq_nil_or_concat with rfl | ⟨rest, last, rfl⟩
  · cases (List.append_inj' shape rfl).2
  · rw [List.concat_eq_append, ← List.cons_append, ← List.append_assoc] at shape
    rw [(List.append_inj' shape rfl).1]
    exact ⟨front, listed, rest ++ more, by simp⟩

theorem OpensImpl.cases (opens : OpensImpl ts) : ∃ rest, ts = wordTree implIdent :: rest
    ∨ ts = wordTree unsafeIdent :: wordTree implIdent :: rest ∨ ts = wordTree defaultIdent :: wordTree implIdent :: rest
    ∨ ts = wordTree defaultIdent :: wordTree unsafeIdent :: wordTree implIdent :: rest := by
  obtain ⟨front, listed, rest, rfl⟩ := opens
  simp only [implFronts, List.mem_cons, List.not_mem_nil, or_false] at listed
  rcases listed with rfl | rfl | rfl | rfl
  · exact ⟨rest, Or.inl rfl⟩
  · exact ⟨rest, Or.inr (Or.inl rfl)⟩
  · exact ⟨rest, Or.inr (Or.inr (Or.inl rfl))⟩
  · exact ⟨rest, Or.inr (Or.inr (Or.inr rfl))⟩

theorem OpensImpl.append (opens : OpensImpl ts) (more : List TokenTree) : OpensImpl (ts ++ more) := by
  obtain ⟨front, listed, rest, rfl⟩ := opens
  exact ⟨front, listed, rest ++ more, by simp⟩

theorem OpensImpl.solid (opens : OpensImpl ts) : ts ≠ [] := by
  obtain ⟨rest, rfl | rfl | rfl | rfl⟩ := opens.cases <;> exact List.cons_ne_nil _ _

/-- Nothing else is read of an item that opens as an implementation. -/
theorem item_reaches {r : Rules} (opens : OpensImpl ts) :
    Reaches (do itemTail none (← visibility)) (do return .impl (← implItem)) r ts ts := by
  obtain ⟨rest, rfl | rfl | rfl | rfl⟩ := opens.cases <;> exact fun read => ⟨read, rfl⟩

theorem no_attributes {r : Rules} (opens : OpensImpl ts) : Answers outerAttributes r ts (some (none, ts)) := by
  obtain ⟨rest, rfl | rfl | rfl | rfl⟩ := opens.cases <;> exact fun read => ⟨read, rfl⟩

theorem no_inner_attributes {r : Rules} (opens : OpensImpl ts) : Answers innerAttributes r ts (some (none, ts)) := by
  obtain ⟨rest, rfl | rfl | rfl | rfl⟩ := opens.cases <;> exact fun read => ⟨read, rfl⟩

/-- The head of an implementation, as it is read in front of an empty block. -/
def IsHead (n : Nat) (head : List TokenTree) (decl : ImplDecl) : Prop :=
  ∃ read, implItem.run (rules n) (.start (head ++ [.group .brace []])) = some (.ok (decl, ⟨[], none, read⟩))

variable {head inside : List TokenTree} {decl : ImplDecl}

theorem IsHead.reaches (is : IsHead n head decl) (le : n ≤ m) (inside after : List TokenTree) :
    Reaches implItem (do return { decl with functions := (← members implMember).filterMap id }) (rules m)
      (head ++ .group .brace inside :: after) (.group .brace inside :: after) := by
  obtain ⟨read, ran⟩ := is
  obtain ⟨ts, block, own, -, leads⟩ := implItem_leads n _ decl _ ran rfl rfl
  obtain rfl : head = ts := (List.append_inj' own rfl).1
  intro under
  obtain ⟨read', step⟩ := leads (rules m) (rules_extend le) inside after under
  exact ⟨read', step⟩

/-- An implementation is read as an item with the members of its block. -/
theorem IsHead.answers {γ : Type} {x : Option γ} {functions : γ → List (Option FnDecl)} (is : IsHead n head decl) (le : n ≤ m)
    (members : Answers (plainList implMember) (rules m) inside (x.map fun u => (functions u, [])))
    (plain : Answers innerAttributes (rules m) inside (some (none, inside))) (after : List TokenTree) :
    Answers (nested .item) (rules (m + 1)) (head ++ .group .brace inside :: after)
      (x.map fun u => (.impl { decl with functions := (functions u).filterMap id }, after)) := by
  have opens : OpensImpl (head ++ .group .brace inside :: after) := by
    obtain ⟨read, ran⟩ := is
    exact (opens_of_implItem ran).behind _
  have read : Answers implItem (rules m) (head ++ .group .brace inside :: after)
      (x.map fun u => ({ decl with functions := (functions u).filterMap id }, after)) := by
    have block : Answers (Parsing.members implMember) (rules m) (.group .brace inside :: after) (x.map fun u => (functions u, after)) :=
      Answers.within (Answers.bind plain members) after
    exact (is.reaches le inside after).answers (Answers.bindMap block fun _ => Answers.pure _ _)
  have item : Answers (do itemTail none (← visibility)) (rules m) (head ++ .group .brace inside :: after)
      (x.map fun u => (.impl { decl with functions := (functions u).filterMap id }, after)) :=
    (item_reaches opens).answers (Answers.bindMap read fun _ => Answers.pure _ _)
  refine Answers.nested (Answers.bind (no_attributes opens) ?_)
  exact Answers.bindMap (Answers.asWrittenWhen item) fun _ => Answers.pure _ _

end Accessors.Parsing
