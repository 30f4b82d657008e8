import Accessors.Proofs.BorderedTypes

/-!
A type behind an ampersand. There a type is read that is no sum of bounds, also where what stands there is one. So
either the same type is read, or reading stops at a plus sign, if it does not fail.
-/

namespace Accessors.Parsing

/-- A plus sign stands ahead. -/
def AtPlus (c : Cursor) : Prop := Ahead.op ['+'] c.rest = true

/-- Where a plus sign is ahead in front of the border, it is ahead elsewhere. -/
theorem AtPlus.move {s : Border} {c : Cursor} (plus : AtPlus c) (before : s.Before c) (under : List Lexeme) :
    AtPlus (s.move under c) := by
  obtain ⟨ts, own⟩ := before.1
  rw [AtPlus, Border.move_of_append own.symm, ← s.blind_op ['+'] ts, own]
  exact plus

/-- What the first parser reads before the border, the second reads too, or the third, which stands for it elsewhere,
does not get past a plus sign. -/
def Narrows (s : Border) (p q q' : Parser α) (r : Rules) (c : Cursor) : Prop :=
  ∀ a c', p.run r c = some (.ok (a, c')) → s.Before c' → s.Before c ∧ (q.run r c = some (.ok (a, c'))
    ∨ ∀ deep : Rules, deep.Extends r → ∀ under, Yields q' deep (s.move under c) fun _ c'' => AtPlus c'')

namespace Narrows

variable {α β : Type} {s : Border} {r : Rules} {c : Cursor} {p p' q q' : Parser α} {next nextQ nextQ' : α → Parser β}

theorem of_kept (kept : Kept s p r c) : Narrows s p p q' r c :=
  fun a c' ran before => ⟨(kept a c' ran before).1, Or.inl ran⟩

theorem get {next nextQ nextQ' : Cursor → Parser β}
    (second : ∀ under, Narrows s (next c) (nextQ c) (nextQ' (s.move under c)) r c) :
    Narrows s (MonadState.get >>= next) (MonadState.get >>= nextQ) (MonadState.get >>= nextQ') r c := by
  intro b c' ran before
  refine ⟨(second [] b c' ran before).1, ?_⟩
  by_cases narrow : (nextQ c).run r c = some (.ok (b, c'))
  · exact Or.inl narrow
  · exact Or.inr fun deep further under => (second under b c' ran before).2.resolve_left narrow deep further under

/-- Where only the first parser looks at where it is. -/
theorem getFirst {next : Cursor → Parser α} (second : Narrows s (next c) q q' r c) : Narrows s (MonadState.get >>= next) q q' r c :=
  second

theorem ifAhead {look : List TokenTree → Bool} {yes no yesQ noQ yesQ' noQ' : Parser β} (blind : s.Blind look)
    (seen : look c.rest = true → Narrows s yes yesQ yesQ' r c) (unseen : look c.rest = false → Narrows s no noQ noQ' r c) :
    Narrows s (do if ← Parsing.ahead look then yes else no) (do if ← Parsing.ahead look then yesQ else noQ)
      (do if ← Parsing.ahead look then yesQ' else noQ') r c := by
  have chosen : ∀ (deep : Rules) (c₀ : Cursor) (one other : Parser β),
      (do if ← Parsing.ahead look then one else other : Parser β).run deep c₀
        = (if look c₀.rest then one else other).run deep c₀ := fun _ _ _ _ => rfl
  intro b c' ran before
  have way : s.Before c → ∀ under, look (s.move under c).rest = look c.rest := by
    rintro ⟨⟨ts, own⟩, -⟩ under
    rw [Border.move_of_append own.symm, ← own]
    exact (blind ts).symm
  rw [chosen] at ran ⊢
  cases found : look c.rest with
  | true =>
      rw [found] at ran
      obtain ⟨start, narrow⟩ := seen found b c' ran before
      refine ⟨start, narrow.imp_right fun stuck deep further under b c'' ran' => ?_⟩
      rw [chosen, way start, found] at ran'
      exact stuck deep further under b c'' ran'
  | false =>
      rw [found] at ran
      obtain ⟨start, narrow⟩ := unseen found b c' ran before
      refine ⟨start, narrow.imp_right fun stuck deep further under b c'' ran' => ?_⟩
      rw [chosen, way start, found] at ran'
      exact stuck deep further under b c'' ran'

theorem ite {b : Prop} [Decidable b] {yes no yesQ noQ yesQ' noQ' : Parser α} (holds : b → Narrows s yes yesQ yesQ' r c)
    (fails : ¬b → Narrows s no noQ noQ' r c) :
    Narrows s (if b then yes else no) (if b then yesQ else noQ) (if b then yesQ' else noQ') r c := by
  split
  · exact holds ‹b›
  · exact fails ‹¬b›

/-- A choice that is made by the plus sign alone. -/
theorem byPlus (kept : Carries s p p' r c) (other : ¬ AtPlus c → p.run r c = q.run r c)
    (still : ∀ deep c', AtPlus c' → Yields q' deep c' fun _ c'' => AtPlus c'') : Narrows s p q q' r c := by
  intro a c' ran before
  obtain ⟨start, -⟩ := kept a c' ran before
  by_cases plus : AtPlus c
  · exact ⟨start, Or.inr fun deep _ under => still deep _ (plus.move start under)⟩
  · exact ⟨start, Or.inl (by rw [← other plus, ran])⟩

/-- What is read first is read whether or not sums are. -/
theorem bind (first : Carries s p p' r c) (second : ∀ a c', Narrows s (next a) (nextQ a) (nextQ' a) r c') :
    Narrows s (p >>= next) (p >>= nextQ) (p' >>= nextQ') r c := by
  intro b c'' ran before
  rw [run_bind] at ran
  cases found : p.run r c with
  | none => rw [found] at ran; cases ran
  | some answer =>
      rw [found] at ran
      match answer, ran with
      | .error place, ran => cases ran
      | .ok (a, c'), ran =>
          obtain ⟨between, later⟩ := second a c' b c'' ran before
          obtain ⟨start, earlier⟩ := first a c' found between
          refine ⟨start, later.imp (fun narrow => ?_) fun stuck deep further under b c₃ ran' => ?_⟩
          · rw [run_bind, found]
            exact narrow
          · rw [run_bind, p'.stable further _ _ (earlier under)] at ran'
            exact stuck deep further under b c₃ ran'

/-- What is made of that which was read. -/
theorem map (first : Narrows s p q q' r c) (second : ∀ a c', Kept s (next a) r c')
    (still : ∀ deep a c', AtPlus c' → Yields (nextQ' a) deep c' fun _ c'' => AtPlus c'') :
    Narrows s (p >>= next) (q >>= next) (q' >>= nextQ') r c := by
  intro b c'' ran before
  rw [run_bind] at ran
  cases found : p.run r c with
  | none => rw [found] at ran; cases ran
  | some answer =>
      rw [found] at ran
      match answer, ran with
      | .error place, ran => cases ran
      | .ok (a, c'), ran =>
          obtain ⟨start, narrow⟩ := first a c' found (second a c' b c'' ran before).1
          refine ⟨start, narrow.imp (fun narrow => ?_) fun stuck deep further under => ?_⟩
          · rw [run_bind, narrow]
            exact ran
          · exact Yields.bind (stuck deep further under) (still deep)

theorem asWrittenWhen {keep : α → Bool} (inner : Narrows s p q q' r c) :
    Narrows s (asWrittenWhen keep p) (asWrittenWhen keep q) (asWrittenWhen keep q') r c := by
  intro x c'' ran before
  rw [Carries.run_asWrittenWhen] at ran
  cases found : p.run r c with
  | none => rw [found] at ran; cases ran
  | some answer =>
      rw [found] at ran
      match answer, ran with
      | .error place, ran => cases ran
      | .ok (a, c'), ran =>
          have between : s.Before c' := by
            cases ran
            split at before <;> exact before
          obtain ⟨start, narrow⟩ := inner a c' found between
          refine ⟨start, narrow.imp (fun narrow => ?_) fun stuck deep further under => ?_⟩
          · rw [Carries.run_asWrittenWhen, narrow]
            exact ran
          · refine Yields.get (Yields.bind (stuck deep further under) fun b c₃ plus => Yields.get ?_)
            dsimp only
            split
            · refine Yields.bind (P := fun _ c₄ => AtPlus c₄) ?_ fun _ _ plus => Yields.pure plus
              intro u c₄ ran
              cases ran
              exact plus
            · exact Yields.pure plus

end Narrows

namespace Carrying

variable {s : Border} {r : Rules} {c : Cursor}

theorem boundSum_narrows (carrying : Carrying s r) (captures consts : Bool) : Narrows s (Parsing.boundSum true captures consts)
    (Parsing.boundSum false captures consts) (Parsing.boundSum false captures consts) r c := by
  refine Narrows.getFirst (Narrows.bind carrying.bound fun first c' => ?_)
  refine Narrows.byPlus (carrying.boundsBehind captures consts first (Nat.le_refl _)) (fun none => ?_) fun _ _ plus => Yields.pure plus
  have unseen : Ahead.op ['+'] c'.rest = false := by simpa [AtPlus] using none
  rw [run_bind]
  simp only [takeOp?, run_bind, run_ahead, Parser.andThen, unseen]
  rfl

theorem objectBounds_narrows (carrying : Carrying s r) (place place' : Place) : Narrows s (Parsing.objectBounds place true)
    (Parsing.objectBounds place false) (Parsing.objectBounds place' false) r c := by
  refine Narrows.map (carrying.boundSum_narrows false false) (fun bounds _ => ?_) fun _ bounds _ plus => ?_
  · split
    · exact Carries.pure _
    · exact Carries.refuse
  · split
    · exact Yields.pure plus
    · exact Yields.refuse

theorem implType_narrows (carrying : Carrying s r) :
    Narrows s (Parsing.implType true) (Parsing.implType false) (Parsing.implType false) r c := by
  refine Narrows.get fun _ => Narrows.bind (Carries.word _) fun _ _ => ?_
  refine Narrows.map (carrying.boundSum_narrows true true) (fun bounds _ => ?_) fun _ bounds _ plus => ?_
  · split
    · exact Carries.refuse
    · exact Carries.pure _
  · split
    · exact Yields.refuse
    · exact Yields.pure plus

/-- A choice between the sum that a plus sign leads to and what was read so far. -/
theorem plus_narrows {β : Type} {sum alone : Parser β} (kept : Kept s (do
      if ← ahead fun t => true && Ahead.op ['+'] t then sum else alone) r c)
    (still : ∀ deep c', AtPlus c' → Yields alone deep c' fun _ c'' => AtPlus c'') :
    Narrows s (do if ← ahead fun t => true && Ahead.op ['+'] t then sum else alone)
      (do if ← ahead fun t => false && Ahead.op ['+'] t then sum else alone)
      (do if ← ahead fun t => false && Ahead.op ['+'] t then sum else alone) r c := by
  refine Narrows.byPlus kept (fun none => ?_) fun deep c' plus => ?_
  · have unseen : Ahead.op ['+'] c.rest = false := by simpa [AtPlus] using none
    change (if true && Ahead.op ['+'] c.rest then sum else alone).run r c = alone.run r c
    rw [unseen]
    rfl
  · exact Yields.ifAhead (fun seen => by cases seen) fun _ => still deep c' plus

theorem parenType_narrows (carrying : Carrying s r) :
    Narrows s (Parsing.parenType true) (Parsing.parenType false) (Parsing.parenType false) r c := by
  refine Narrows.bind (Carries.within _ _) fun found c' => ?_
  cases found with
  | tuple elements => exact Narrows.of_kept (Carries.pure _)
  | firstBound first =>
      refine Narrows.of_kept ?_
      exact Carries.bind (carrying.addedBounds (Border.Blind.const true)) fun _ _ => Carries.pure _
  | single inner =>
      dsimp only
      split
      · refine plus_narrows ?_ fun _ _ plus => Yields.pure plus
        refine Carries.ifAhead (s.blind_plus true) (fun _ => ?_) fun _ => Carries.pure _
        exact Carries.bind (carrying.addedBounds (Border.Blind.const true)) fun _ _ => Carries.pure _
      · exact Narrows.of_kept (Carries.pure _)

theorem pathBound_narrows (carrying : Carrying s r) (binder : Option Binder) (rooted : Bool) (segments : List Segment) :
    Narrows s (Parsing.pathBound true binder rooted segments) (Parsing.pathBound false binder rooted segments)
      (Parsing.pathBound false binder rooted segments) r c := by
  refine Narrows.byPlus (carrying.pathBound true binder rooted segments) (fun none => ?_) fun _ _ plus => ?_
  · have unseen : Ahead.op ['+'] c.rest = false := by simpa [AtPlus] using none
    unfold Parsing.pathBound
    rw [run_bind, run_bind, run_ahead, run_ahead, unseen]
    rfl
  · refine Yields.bind Yields.ahead ?_
    rintro more c' ⟨rfl, rfl⟩
    cases binder <;> exact Yields.pure plus

theorem pathType_narrows (carrying : Carrying s r) (binder : Option Binder) :
    Narrows s (Parsing.pathType true binder) (Parsing.pathType false binder) (Parsing.pathType false binder) r c := by
  refine Narrows.bind (Carries.captured fun c' _ => carrying.pathOrMacro) fun found c₁ => ?_
  obtain ⟨⟨t, isMacro⟩, lexemes⟩ := found
  cases isMacro with
  | true => exact Narrows.of_kept (Carries.pure _)
  | false =>
      cases t with
      | path rooted segments => exact carrying.pathBound_narrows binder rooted segments
      | _ => exact Narrows.of_kept (Carries.pure _)

/-- What stands before the border as a type stands elsewhere as the same type behind an ampersand, or a plus sign stops
it there. -/
theorem typeOf_narrows (carrying : Carrying s r) :
    Narrows s (Parsing.typeOf true) (Parsing.typeOf false) (Parsing.typeOf false) r c := by
  refine Narrows.bind carrying.binder fun binder c₁ => Narrows.bind (Carries.ahead s.blind_bindable) fun bindable c₂ => ?_
  refine Narrows.ite (fun _ => fun a c' ran => by cases ran) fun _ => ?_
  refine Narrows.ifAhead (s.blind_opens (by decide)) (fun _ => carrying.parenType_narrows) fun _ => ?_
  refine Narrows.ifAhead s.blind_functionType (fun _ => Narrows.of_kept (carrying.functionType binder)) fun _ => ?_
  refine Narrows.ifAhead s.blind_pathType (fun _ => carrying.pathType_narrows binder) fun _ => ?_
  refine Narrows.ifAhead (s.blind_word _) (fun _ => Narrows.get fun _ => ?_) fun _ => ?_
  · refine Narrows.map (Narrows.asWrittenWhen ?_) (fun _ _ => Carries.pure _) fun _ _ _ plus => Yields.pure plus
    refine Narrows.bind (Carries.word _) fun _ _ => Narrows.bind (Carries.someOp _) fun starred _ => ?_
    exact Narrows.map (carrying.objectBounds_narrows _ _) (fun _ _ => Carries.pure _) fun _ _ _ plus => Yields.pure plus
  refine Narrows.ifAhead (s.blind_opens (by decide)) (fun _ => Narrows.of_kept (Carries.within _ _)) fun _ => ?_
  refine Narrows.bind (Carries.someOp _) fun star c₂ => ?_
  cases star with
  | true =>
      rw [if_pos rfl, if_pos rfl]
      exact Narrows.of_kept carrying.pointer
  | false =>
      refine Narrows.bind (Carries.someOp _) fun ampersand c₃ => ?_
      cases ampersand with
      | true =>
          rw [if_pos rfl, if_pos rfl]
          exact Narrows.of_kept carrying.reference
      | false =>
          refine Narrows.bind (Carries.someOp _) fun bang c₄ => ?_
          cases bang with
          | true => exact Narrows.of_kept (Carries.pure _)
          | false =>
              refine Narrows.ifAhead (s.blind_word _) (fun _ => carrying.implType_narrows) fun _ => ?_
              refine Narrows.bind (Carries.someWord _) fun underscore c₅ => ?_
              cases underscore with
              | true => exact Narrows.of_kept (Carries.pure _)
              | false =>
                  refine Narrows.of_kept ?_
                  refine Carries.ifAhead s.blind_lifetime (fun _ => Carries.get fun _ => ?_) fun _ => Carries.fail
                  exact Carries.bind (carrying.objectBounds true) fun _ _ => Carries.pure _

end Carrying

/-! Behind the ampersand. -/

/-- What stands behind the ampersand of a reference. -/
def referred : Parser Ty := do
  let lifetime ← takeLifetime?
  let isMut ← takeWord? "mut"
  return .reference lifetime isMut (← nested (.ty false))

/-- The word `mut` begins no type. -/
theorem no_type_at_mut {sums : Bool} (word : Ahead.word "mut" c.rest = true) :
    (typeOf sums).run r c = some (.error c.place) := by
  obtain ⟨rest, stray, read⟩ := c
  match rest, word with
  | .leaf (.ident ⟨text, whole⟩) :: rest, word =>
      obtain rfl : text = "mut" := by simpa [Ahead.word] using word
      rfl

/-- A type that begins with a lifetime is a sum. -/
theorem plus_behind_lifetime {n : Nat} {l : Lifetime} {rest : List TokenTree} {stray : Option Place} {read : List Lexeme}
    {t : Ty} {c' : Cursor} (ran : (typeOf true).run (rules n) ⟨.leaf (.lifetime l) :: rest, stray, read⟩ = some (.ok (t, c'))) :
    Ahead.op ['+'] rest = true := by
  rw [← Bool.not_eq_false]
  intro unseen
  cases n with
  | zero => cases ran
  | succ n =>
      have alone : (boundSum true false false).run (rules (n + 1)) ⟨.leaf (.lifetime l) :: rest, stray, read⟩
          = some (.ok ([.lifetime l], ⟨rest, stray, .lifetime l :: read⟩)) := by
        change Parser.andThen ((takeOp? ['+']).run (rules (n + 1)) ⟨rest, stray, .lifetime l :: read⟩) _ = _
        rw [takeOp?, run_bind, run_ahead, unseen]
        rfl
      change Parser.andThen (Parser.andThen ((boundSum true false false).run (rules (n + 1)) _) _) _ = _ at ran
      rw [alone] at ran
      cases ran

/-- Without a lifetime and the word `mut` all that stands behind the ampersand is the type. -/
theorem run_referred {m : Nat} (noLifetime : Ahead.lifetime c.rest = false) (noMut : Ahead.word "mut" c.rest = false) :
    referred.run (rules (m + 1)) c
      = Parser.andThen ((typeOf false).run (rules m) c) fun t c' => some (.ok (.reference none false t, c')) := by
  rw [referred, run_bind, takeLifetime?, run_bind, run_ahead, noLifetime]
  change (takeWord? "mut" >>= fun isMut => do return Ty.reference none isMut (← nested (.ty false))).run _ _ = _
  rw [run_bind, takeWord?, run_bind, run_ahead, noMut]
  rfl

/-- A lifetime is taken for that of the reference, and a plus sign is no type. -/
theorem run_referred_lifetime {m : Nat} {l : Lifetime} {rest : List TokenTree} {stray : Option Place} {read : List Lexeme}
    (plus : Ahead.op ['+'] rest = true) :
    referred.run (rules (m + 1)) ⟨.leaf (.lifetime l) :: rest, stray, read⟩ = some (.error (TokenTree.sizeAll rest)) := by
  match rest, plus with
  | .leaf (.punct d joint) :: rest, plus =>
      obtain rfl : '+' = d := by simpa [Ahead.op] using plus
      rfl

/-- A sum of bounds by itself, behind an ampersand: the type that it is without the ampersand is referred to, or a plus
sign stops what is read. -/
theorem referred_narrows {s : Border} {n : Nat} {c c' : Cursor} {t : Ty}
    (ran : (typeOf true).run (rules n) c = some (.ok (t, c'))) (before : s.Before c') :
    s.Before c ∧ (referred.run (rules (n + 1)) c = some (.ok (.reference none false t, c'))
      ∨ ∀ m, n < m → ∀ under, Yields referred (rules m) (s.move under c) fun _ c'' => AtPlus c'') := by
  have noMut : Ahead.word "mut" c.rest = false := by
    rw [Bool.eq_false_iff]
    intro word
    rw [no_type_at_mut word] at ran
    cases ran
  obtain ⟨start, narrow⟩ := (rules_carrying s n).typeOf_narrows t c' ran before
  refine ⟨start, ?_⟩
  obtain ⟨ts, own⟩ := start.1
  have there : ∀ under, (s.move under c).rest = ts ++ s.far := fun under => by rw [Border.move_of_append own.symm]
  have noMut' : ∀ under, Ahead.word "mut" (s.move under c).rest = false := fun under => by
    rw [there, ← s.blind_word "mut" ts, own, noMut]
  cases lead : Ahead.lifetime c.rest with
  | false =>
      have lead' : ∀ under, Ahead.lifetime (s.move under c).rest = false := fun under => by
        rw [there, ← s.blind_lifetime ts, own, lead]
      refine narrow.imp (fun narrow => ?_) fun stuck m further under => ?_
      · rw [run_referred lead noMut, narrow]
        rfl
      · obtain ⟨m, rfl⟩ := Nat.exists_eq_succ_of_ne_zero (Nat.ne_of_gt (Nat.lt_of_le_of_lt (Nat.zero_le n) further))
        intro a c'' ran'
        rw [Nat.succ_eq_add_one, run_referred (lead' under) (noMut' under)] at ran'
        cases found : (typeOf false).run (rules m) (s.move under c) with
        | none => rw [found] at ran'; cases ran'
        | some answer =>
            rw [found] at ran'
            match answer, ran' with
            | .error place, ran' => cases ran'
            | .ok (b, c₃), ran' =>
                cases ran'
                exact stuck (rules m) (rules_extend (Nat.le_of_lt_succ further)) under b c'' found
  | true =>
      right
      intro m further under a c'' ran'
      obtain ⟨m, rfl⟩ := Nat.exists_eq_succ_of_ne_zero (Nat.ne_of_gt (Nat.lt_of_le_of_lt (Nat.zero_le n) further))
      obtain ⟨rest, stray, read⟩ := c
      match ts, own with
      | [], own =>
          have none : Ahead.lifetime s.near = false := s.false_at_near rfl fun _ => rfl
          rw [← own, List.nil_append, none] at lead
          cases lead
      | .leaf (.lifetime l) :: ts, own =>
          obtain rfl : .leaf (.lifetime l) :: (ts ++ s.near) = rest := own
          have plus := plus_behind_lifetime ran
          rw [s.blind_op ['+'] ts] at plus
          rw [Border.move_of_append (t := .leaf (.lifetime l) :: ts) rfl] at ran'
          rw [Nat.succ_eq_add_one, List.cons_append, run_referred_lifetime plus] at ran'
          cases ran'
      | .leaf (.ident _) :: ts, own | .leaf (.punct _ _) :: ts, own | .leaf (.literal _) :: ts, own
      | .leaf (.opening _) :: ts, own | .leaf (.closing _) :: ts, own | .group _ _ :: ts, own =>
          rw [← own] at lead
          cases lead

end Accessors.Parsing
