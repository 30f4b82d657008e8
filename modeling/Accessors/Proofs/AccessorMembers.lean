import Accessors.Proofs.AccessorTokens
import Accessors.Proofs.ParserAnswers
import Accessors.Proofs.ReferredTypes

/-!
The accessors of a field as members of an implementation.
-/

namespace Accessors

namespace Literal

theorem is_whole_of_digits {text : List Char} (digits : ∀ c ∈ text, c.isDigit = true) : isWhole text = true := by
  induction text with
  | nil => rfl
  | cons c text ih =>
      obtain ⟨digit, others⟩ := List.forall_mem_cons.mp digits
      simp [isWhole, digit, ih others]

/-- A position is an integer. -/
theorem is_integer_position (position : Nat) : isInteger (ofNat position).text = true := by
  obtain ⟨digits, some⟩ := position_digits position
  unfold isInteger
  split
  · rfl
  · rfl
  · rfl
  · next c rest shape =>
      rw [shape] at digits
      obtain ⟨digit, others⟩ := List.forall_mem_cons.mp digits
      rw [digit, is_whole_of_digits others]
      rfl
  · next shape => exact absurd shape some

end Literal

namespace Parsing

/-- A position is read as one if it fits 32 bits. -/
theorem position_read (position : Nat) :
    position? ((Literal.ofNat position).text.toList.filter (· != '_'))
      = if position < Nat.pow 2 32 then some (Literal.ofNat position) else none := by
  have digits : (Literal.ofNat position).text.toList = Nat.toDigits 10 position := Nat.toList_repr
  have plain : ∀ c ∈ Nat.toDigits 10 position, c.isDigit = true :=
    fun c member => Nat.isDigit_of_mem_toDigits (by decide) (by decide) member
  have kept : (Nat.toDigits 10 position).filter (· != '_') = Nat.toDigits 10 position := by
    rw [List.filter_eq_self]
    intro c member
    rw [bne_iff_ne]
    rintro rfl
    exact absurd (plain '_' member) (by decide)
  have value : (Nat.toDigits 10 position).foldl (fun n c => n * 10 + (c.toNat - '0'.toNat)) 0 = position := by
    have same := Nat.ofDigitChars_ten_toDigits (n := position)
    rw [Nat.ofDigitChars_eq_foldl] at same
    simpa only [Nat.mul_comm] using same
  have all : (!(Nat.toDigits 10 position).isEmpty && (Nat.toDigits 10 position).all Char.isDigit) = true := by
    rw [List.all_eq_true.mpr plain]
    simp
  rw [digits, kept, position?, positionText, value, all]
  simp

/-- A word of the language as a tree. -/
abbrev wordTree (name : Ident) : TokenTree := .leaf (.ident name)

abbrev markTree (c : Char) (joint : Bool) : TokenTree := .leaf (.punct c joint)

/-- A field can be selected by a name that is no reserved word, by the word that stands for awaiting, or by a position of
32 bits. -/
def Selectable (name : String) : Prop :=
  name = "await" ∨ name ∉ reserved ∧ ∀ position : Nat, toString position = name → position < Nat.pow 2 32

/-- What comes of a field that is selected by a name. -/
def Selects (name : String) (x : Option Unit) : Prop := x = some () ↔ Selectable name

variable {r : Rules} {n : Nat} {ts back : List TokenTree} {name : String} {l : Lexeme} {x : Option Unit}

theorem no_digits_of_ident (field : Ident) (position : Nat) : toString position ≠ field.text := by
  intro same
  obtain ⟨c, rest, shape, opens⟩ := Lexer.word_opens field
  obtain ⟨digits, -⟩ := position_digits position
  have digit := digits c (by rw [show (Literal.ofNat position).text = field.text from same, shape]; exact List.mem_cons_self)
  have table : ∀ c ∈ "0123456789".toList, Text.isIdentStart c = false := Lexer.each_of_all (by decide +kernel)
  rw [table c (Literal.digits_listed digit)] at opens
  cases opens

theorem no_word_of_position (position : Nat) : toString position ∉ reserved ∧ toString position ≠ "await" := by
  have table : ∀ w ∈ reserved, w.toList.all (fun c => !c.isDigit) = true ∧ w.toList ≠ [] := by decide
  have free : toString position ∉ reserved := by
    intro listed
    obtain ⟨digits, some⟩ := position_digits position
    obtain ⟨none, -⟩ := table _ listed
    obtain ⟨c, rest, shape⟩ := List.exists_cons_of_ne_nil some
    have digit := digits c (by rw [shape]; exact List.mem_cons_self)
    rw [show (toString position).toList = c :: rest from shape] at none
    simp [digit] at none
  exact ⟨free, fun same => free (by rw [same]; decide)⟩

theorem member_answers (selector : Selector name l) (selects : Selects name x) (colons : Ahead.colons ts = false)
    (call : Ahead.opens .paren ts = false) : Answers member r (.leaf l :: ts) (x.map (·, ts)) := by
  rcases selector with ⟨field, rfl, rfl⟩ | ⟨position, rfl, rfl⟩
  · by_cases awaits : field.text = "await"
    · obtain rfl : x = some () := selects.mpr (Or.inl awaits)
      exact Answers.ifTrue (Answers.someWord awaits ts) (Answers.pure () ts)
    · refine Answers.ifFalse (Answers.noWord (by simp [Ahead.word, awaits])) ?_
      by_cases free : field.text ∉ reserved
      · obtain rfl : x = some () :=
          selects.mpr (Or.inr ⟨free, fun position same => absurd same (no_digits_of_ident field position)⟩)
        refine Answers.ifTrue (Answers.ahead (by simpa [Ahead.ident] using free)) ?_
        refine Answers.bind (Answers.takeIdent free ts) (Answers.bind (Answers.ahead colons) ?_)
        exact Answers.ifFalse (Answers.ahead call) (Answers.pure () ts)
      · obtain rfl : x = none := by
          cases x with
          | none => rfl
          | some u => exact absurd (selects.mp rfl) (by rintro (awaits' | ⟨free', -⟩); exact awaits awaits'; exact free free')
        refine Answers.ifFalse (Answers.ahead (by simpa [Ahead.ident] using free)) ?_
        exact Answers.get fun _ => Answers.fail
  · obtain ⟨free, awaits⟩ := no_word_of_position position
    refine Answers.ifFalse (Answers.noWord rfl) (Answers.ifFalse (Answers.ahead rfl) (Answers.get fun _ => ?_))
    dsimp only
    rw [Literal.is_integer_position, position_read]
    by_cases small : position < Nat.pow 2 32
    · have only : ∀ other, toString other = toString position → other < Nat.pow 2 32 := by
        intro other same
        have digits : Nat.toDigits 10 other = Nat.toDigits 10 position := by
          rw [← Nat.toList_repr, ← Nat.toList_repr]
          exact congrArg String.toList same
        rwa [← Nat.ofDigitChars_ten_toDigits (n := other), digits, Nat.ofDigitChars_ten_toDigits]
      obtain rfl : x = some () := selects.mpr (Or.inr ⟨free, only⟩)
      rw [if_pos small]
      exact fun read => ⟨_, rfl⟩
    · obtain rfl : x = none := by
        cases x with
        | none => rfl
        | some u =>
            rcases selects.mp rfl with awaits' | ⟨-, bound⟩
            · exact absurd awaits' awaits
            · exact absurd (bound position rfl) small
      rw [if_neg small]
      exact Answers.fail

/-! Bodies. -/

/-- The receiver as an operand, with a field that is selected from it. -/
def selection (l : Lexeme) (ts : List TokenTree) : List TokenTree :=
  wordTree selfIdent :: markTree '.' false :: .leaf l :: ts

theorem trailer_answers (selector : Selector name l) (selects : Selects name x) (colons : Ahead.colons ts = false)
    (call : Ahead.opens .paren ts = false) :
    Answers (trailerStep .plain) r (markTree '.' false :: .leaf l :: ts) (x.map fun _ => (some .plain, ts)) := by
  have field := member_answers (r := r) selector selects colons call
  refine Answers.ifFalse (Answers.ahead rfl) (Answers.ifTrue (Answers.ahead rfl) ?_)
  refine Answers.bind (t := .leaf l :: ts) (fun _ => ⟨_, rfl⟩) (Answers.get fun _ => ?_)
  have chosen : Answers (do member; return some ExprKind.plain) r (.leaf l :: ts) (x.map fun _ => (some .plain, ts)) :=
    Answers.bindMap field fun _ => Answers.pure _ ts
  rcases selector with ⟨field, rfl, -⟩ | ⟨position, rfl, -⟩
  · exact chosen
  · dsimp only
    rw [Literal.is_integer_position, Bool.not_true, Bool.and_false]
    exact chosen

theorem selection_answers (ts : List TokenTree) (selector : Selector name l) (selects : Selects name x) (colons : Ahead.colons ts = false)
    (call : Ahead.opens .paren ts = false) (stop : Answers (trailerStep .plain) r ts (some (none, ts))) :
    Answers (unaryOf true) r (selection l ts) (x.map fun _ => (.plain, ts)) := by
  refine Answers.bind (t := selection l ts) (fun read => ⟨read, rfl⟩) ?_
  refine Answers.ifFalse (t := selection l ts) (fun read => ⟨read, rfl⟩) (Answers.ifFalse (Answers.ahead rfl) ?_)
  refine Answers.bind (a := .plain) (t := markTree '.' false :: .leaf l :: ts) (fun _ => ⟨_, rfl⟩) ?_
  exact Answers.iterateOnce (trailer_answers selector selects colons call) stop

/-- An expression stands ahead that neither is a block nor can be taken for another statement. -/
structure OpensExpression (ts : List TokenTree) : Prop where
  attributes : ∀ r, Answers outerAttributes r ts (some (none, ts))
  noMacro : ∀ r, Answers macroStatementAhead r ts (some (false, ts))
  noItemMacro : ∀ r, Answers itemMacroAhead r ts (some (false, ts))
  noBlock : ∀ r, Answers blockLikeExpr r ts (some (false, ts))
  solid : Ahead.op [';'] ts = false ∧ Ahead.atEnd ts = false ∧ Ahead.word "let" ts = false ∧ Ahead.item ts = false

theorem opens_selection (l : Lexeme) (ts : List TokenTree) : OpensExpression (selection l ts) where
  attributes _ read := ⟨read, rfl⟩
  noMacro _ read := ⟨read, rfl⟩
  noItemMacro _ read := ⟨read, rfl⟩
  noBlock _ read := ⟨read, rfl⟩
  solid := ⟨rfl, rfl, rfl, rfl⟩

theorem opens_reference (ts : List TokenTree) : OpensExpression (markTree '&' false :: ts) where
  attributes _ read := ⟨read, rfl⟩
  noMacro _ read := ⟨read, rfl⟩
  noItemMacro _ read := ⟨read, rfl⟩
  noBlock _ read := ⟨read, rfl⟩
  solid := ⟨rfl, rfl, rfl, rfl⟩

/-- A body that is one expression, with a semicolon or without. -/
theorem statements_answers (ended : Bool) {b : List TokenTree} (opens : OpensExpression ts)
    (operand : Answers (unaryOf true) (rules n) ts (x.map fun _ => (.plain, b)))
    (operators : Answers (operatorsOf .plain true .jump) (rules n) b
      (some (.plain, if ended then [markTree ';' false] else []))) :
    Answers statementsOf (rules (n + 2)) ts (x.map fun _ => ((), [])) := by
  obtain ⟨semicolon, some, letWord, item⟩ := opens.solid
  have early : Answers earlyOf (rules (n + 1)) ts (x.map fun _ => (.plain, if ended then [markTree ';' false] else [])) := by
    refine Answers.bind (opens.attributes _) (Answers.bind (opens.noBlock _) ?_)
    exact Answers.bindMap (Answers.nested operand) fun _ => Answers.nested operators
  have whole : Answers statement (rules (n + 2)) ts (x.map fun _ => (ended, [])) := by
    refine Answers.bind (opens.attributes _) (Answers.ifFalse (opens.noMacro _) (Answers.ifFalse (Answers.ahead letWord) ?_))
    refine Answers.bind (Answers.ahead item) (Answers.bind (opens.noItemMacro _) ?_)
    refine Answers.bindMap (Answers.nested early) fun _ => ?_
    cases ended with
    | false => exact fun read => ⟨read, rfl⟩
    | true => exact fun _ => ⟨_, rfl⟩
  refine Answers.bindMap (f := fun _ => ()) (t := []) (Answers.iterateStop ?_) fun _ => Answers.pure _ _
  refine Answers.ifFalse (Answers.ifFalse (Answers.ahead semicolon) (Answers.pure _ _)) (Answers.ifFalse (Answers.ahead some) ?_)
  exact Answers.bindMap whole fun _ => fun read => ⟨read, rfl⟩

/-- What is given to the field in the body of a setter. -/
def given : List TokenTree := [markTree '=' false, wordTree valIdent, markTree ';' false]

def getterBody (l : Lexeme) : List TokenTree := markTree '&' false :: selection l []

def setterBody (l : Lexeme) : List TokenTree := selection l given

theorem getterBody_answers (selector : Selector name l) (selects : Selects name x) :
    Answers block (rules (n + 5)) (.group .brace (getterBody l) :: ts) (x.map fun _ => ((), ts)) := by
  refine Answers.within (Answers.bind (a := none) (t := getterBody l) (fun read => ⟨read, rfl⟩) (Answers.nested ?_)) ts
  refine statements_answers false (b := []) (opens_reference _) ?_ fun read => ⟨read, rfl⟩
  refine Answers.bind (a := none) (t := getterBody l) (fun read => ⟨read, rfl⟩) ?_
  refine Answers.ifTrue (t := selection l []) (fun _ => ⟨_, rfl⟩) (Answers.bind (Answers.ahead (b := false) rfl) ?_)
  refine Answers.bind (a := false) (t := selection l []) (fun read => ⟨read, rfl⟩) ?_
  have field := selection_answers (r := rules (n + 1)) [] selector selects rfl rfl fun read => ⟨read, rfl⟩
  exact Answers.bindMap (Answers.nested field) fun _ => Answers.pure _ _

theorem setterBody_answers (selector : Selector name l) (selects : Selects name x) :
    Answers block (rules (n + 5)) (.group .brace (setterBody l) :: ts) (x.map fun _ => ((), ts)) := by
  refine Answers.within (Answers.bind (a := none) (t := setterBody l) (fun read => ⟨read, rfl⟩) (Answers.nested ?_)) ts
  have field := selection_answers (r := rules (n + 2)) given selector selects rfl rfl fun read => ⟨read, rfl⟩
  exact statements_answers true (opens_selection _ _) field fun _ => ⟨_, rfl⟩

/-! Members. -/

/-- A method from its return type on. -/
def signatureTail (name : Ident) (params : List FnParam) : Parser FnDecl := do
  let output ← returnType true
  let _ ← whereClause
  return ⟨name, params, output⟩

def memberTail (name : Ident) (params : List FnParam) : Parser (Option FnDecl) := do
  let decl ← signatureTail name params
  if !(← takeOp? [';']) then functionBody
  return some decl

/-- A method is read up to its return type. -/
theorem signature_reaches {method : Ident} (free : method.text ∉ reserved) {inside : List TokenTree} {inputs : List FnParam}
    (reads : Answers params r inside (some (inputs, []))) (ts : List TokenTree) :
    Reaches (signature false) (signatureTail method inputs) r
      (wordTree fnIdent :: .leaf (.ident method) :: .group .paren inside :: ts) ts := by
  let all := wordTree fnIdent :: .leaf (.ident method) :: .group .paren inside :: ts
  refine Reaches.bind (a := false) (t := all) (fun read => ⟨read, rfl⟩) ?_
  refine Reaches.bind (a := false) (t := all) (fun read => ⟨read, rfl⟩) ?_
  refine Reaches.bind (a := false) (t := all) (fun read => ⟨read, rfl⟩) ?_
  refine Reaches.bind (Answers.ahead (b := false) rfl) ?_
  refine Reaches.bind (a := none) (t := all) (fun read => ⟨read, rfl⟩) ?_
  refine Reaches.bind (a := ()) (t := .leaf (.ident method) :: .group .paren inside :: ts) (fun _ => ⟨_, rfl⟩) ?_
  refine Reaches.bind (Answers.takeIdent free _) ?_
  refine Reaches.bind (a := []) (t := .group .paren inside :: ts) (fun read => ⟨read, rfl⟩) ?_
  exact Reaches.bind (Answers.within (x := some inputs) (f := id) reads ts) (Reaches.refl _ _ _)

/-- A public method is read up to its return type. -/
theorem implMember_reaches {method : Ident} (free : method.text ∉ reserved) {inside : List TokenTree} {i : List FnParam}
    (reads : Answers params r inside (some (i, []))) (ts : List TokenTree) :
    Reaches implMember (memberTail method i) r
      (wordTree pubIdent :: wordTree fnIdent :: .leaf (.ident method) :: .group .paren inside :: ts) ts := by
  let behind := wordTree fnIdent :: .leaf (.ident method) :: .group .paren inside :: ts
  refine Reaches.bind (a := none) (t := wordTree pubIdent :: behind) (fun read => ⟨read, rfl⟩) ?_
  refine Reaches.bind (a := true) (t := behind) (fun _ => ⟨_, rfl⟩) ?_
  refine Reaches.bind (Answers.ahead (b := false) rfl) (Reaches.bind (Answers.pure false behind) ?_)
  refine Reaches.bind (a := true) (t := behind) (fun read => ⟨read, rfl⟩) ?_
  refine Reaches.bind (Answers.ahead (b := true) rfl) ?_
  exact (signature_reaches free reads ts).behind _

/-- The trees of a getter in front of its body, and of a setter. -/
def getterHead (getter : Ident) : List TokenTree :=
  [wordTree pubIdent, wordTree fnIdent, .leaf (.ident getter), .group .paren [markTree '&' false, wordTree selfIdent],
    markTree '-' true, markTree '>' false]

def setterHead (setter : Ident) (type : List TokenTree) : List TokenTree :=
  [wordTree pubIdent, wordTree fnIdent, .leaf (.ident setter),
    .group .paren ([markTree '&' false, wordTree mutIdent, wordTree selfIdent, markTree ',' false, wordTree valIdent, markTree ':' false] ++ type)]

variable {type : List TokenTree} {t : Ty} {joint : Bool}

theorem returnType_reaches (ts : List TokenTree) : Reaches (returnType true) (do return some (← nested (.ty true))) r
    (markTree '-' true :: markTree '>' false :: ts) ts :=
  Reaches.bind (a := true) (t := ts) (fun _ => ⟨_, rfl⟩) (Reaches.refl _ _ _)

theorem getter_answers {getter : Ident} (free : getter.text ∉ reserved) (selector : Selector name l) (selects : Selects name x)
    (reads : Answers (typeOf true) (rules (n + 4)) (markTree '&' joint :: (type ++ .group .brace (getterBody l) :: ts))
      (some (t, .group .brace (getterBody l) :: ts))) :
    Answers implMember (rules (n + 5)) (getterHead getter ++ markTree '&' joint :: (type ++ .group .brace (getterBody l) :: ts))
      (x.map fun _ => (some ⟨getter, [.receiver], some t⟩, ts)) := by
  refine (implMember_reaches free (i := [.receiver]) (fun _ => ⟨_, rfl⟩) _).answers ?_
  refine Answers.bind (a := ⟨getter, [.receiver], some t⟩) (t := .group .brace (getterBody l) :: ts) ?_ ?_
  · have returns := (returnType_reaches _).answers (Answers.bind (Answers.nested reads) (Answers.pure (some t) _))
    refine Answers.bind returns (Answers.bind (a := []) (t := .group .brace (getterBody l) :: ts) (fun read => ⟨read, rfl⟩) ?_)
    exact Answers.pure _ _
  · refine Answers.bind (a := false) (t := .group .brace (getterBody l) :: ts) (fun read => ⟨read, rfl⟩) ?_
    exact Answers.bindMap (getterBody_answers selector selects) fun _ => Answers.pure _ _

theorem AtPlus.shape {c : Cursor} (plus : AtPlus c) : ∃ joint rest, c.rest = markTree '+' joint :: rest := by
  unfold AtPlus at plus
  match c.rest, plus with
  | .leaf (.punct d joint) :: rest, plus =>
      obtain rfl : '+' = d := beq_iff_eq.mp plus
      exact ⟨joint, rest, rfl⟩

/-- Where a plus sign is left behind the type, the getter has no body. -/
theorem getter_stuck {getter : Ident} (free : getter.text ∉ reserved) {behind : List TokenTree}
    (stuck : ∀ read, Yields (typeOf true) (rules (n + 4)) ⟨markTree '&' joint :: behind, none, read⟩ fun _ c' => AtPlus c') :
    Answers implMember (rules (n + 5)) (getterHead getter ++ markTree '&' joint :: behind) none := by
  refine (implMember_reaches free (i := [.receiver]) (fun _ => ⟨_, rfl⟩) _).answers fun read => ?_
  have nested : ∀ read, Yields (nested (.ty true)) (rules (n + 5)) ⟨markTree '&' joint :: behind, none, read⟩
      fun _ c' => AtPlus c' := stuck
  have returns := (returnType_reaches (markTree '&' joint :: behind)).yields
    (fun read => Yields.bind (nested read) fun _ _ plus => Yields.pure (Q := fun _ c' => AtPlus c') plus) read
  refine Yields.bind (P := fun _ c' => AtPlus c') (Yields.bind returns fun output c' plus => ?_) fun decl c' plus => ?_
  · obtain ⟨joint, rest, shape⟩ := plus.shape
    obtain ⟨_, stray, before⟩ := c'
    subst shape
    intro decl c'' ran
    cases ran
    exact plus
  · obtain ⟨joint, rest, shape⟩ := plus.shape
    obtain ⟨_, stray, before⟩ := c'
    subst shape
    intro found c'' ran
    cases ran

theorem inputs_answers (dots : Ahead.op ['.', '.', '.'] type = false)
    (reads : Answers (typeOf true) (rules (n + 4)) type (some (t, []))) :
    Answers params (rules (n + 5)) (markTree '&' false :: wordTree mutIdent :: wordTree selfIdent :: markTree ',' false
      :: wordTree valIdent :: markTree ':' false :: type) (some ([.receiver, .typed t], [])) := by
  let value := wordTree valIdent :: markTree ':' false :: type
  have second : Answers (param false) (rules (n + 5)) value (some (.typed t, [])) := by
    refine Answers.bind (a := none) (t := value) (fun read => ⟨read, rfl⟩) ?_
    refine Answers.ifFalse (Answers.ahead rfl) ?_
    refine Answers.bind (a := .plain) (t := markTree ':' false :: type) (fun _ => ⟨_, rfl⟩) ?_
    refine Answers.bind (a := ()) (t := type) (fun _ => ⟨_, rfl⟩) ?_
    refine Answers.ifFalse (Answers.ifFalse (Answers.ahead dots) (Answers.pure _ _)) ?_
    exact Answers.bind (Answers.nested reads) (Answers.pure _ _)
  refine Answers.get fun _ => Answers.ifFalse (Answers.ahead rfl) ?_
  refine Answers.bind (a := none) (t := markTree '&' false :: wordTree mutIdent :: wordTree selfIdent :: markTree ',' false :: value)
    (fun read => ⟨read, rfl⟩) ?_
  refine Answers.ifFalse (Answers.ifFalse (Answers.ahead rfl) (Answers.pure _ _)) ?_
  refine Answers.bind (a := .receiver) (t := markTree ',' false :: value) (fun _ => ⟨_, rfl⟩) ?_
  refine Answers.ifFalse (Answers.ahead rfl) (Answers.bind (a := ()) (t := value) (fun _ => ⟨_, rfl⟩) ?_)
  refine Answers.bind (a := [.typed t]) (t := []) ?_ (Answers.pure _ _)
  refine Answers.ifFalse (Answers.ahead rfl) (Answers.bind (a := none) (t := value) (fun read => ⟨read, rfl⟩) ?_)
  refine Answers.ifFalse (Answers.ifFalse (Answers.ahead rfl) (Answers.pure _ _)) (Answers.bind second ?_)
  exact Answers.ifTrue (Answers.ahead rfl) (Answers.pure _ _)

theorem setter_answers {setter : Ident} (free : setter.text ∉ reserved) (selector : Selector name l) (selects : Selects name x)
    (dots : Ahead.op ['.', '.', '.'] type = false) (reads : Answers (typeOf true) (rules (n + 4)) type (some (t, []))) (ts : List TokenTree) :
    Answers implMember (rules (n + 5)) (setterHead setter type ++ .group .brace (setterBody l) :: ts)
      (x.map fun _ => (some ⟨setter, [.receiver, .typed t], none⟩, ts)) := by
  refine (implMember_reaches free (inputs_answers dots reads) _).answers ?_
  refine Answers.bind (a := ⟨setter, [.receiver, .typed t], none⟩) (t := .group .brace (setterBody l) :: ts)
    (fun read => ⟨read, rfl⟩) ?_
  refine Answers.bind (a := false) (t := .group .brace (setterBody l) :: ts) (fun read => ⟨read, rfl⟩) ?_
  exact Answers.bindMap (setterBody_answers selector selects) fun _ => Answers.pure _ _

end Parsing

end Accessors
