import Accessors.Parsing.Source
import Accessors.Proofs.PathsRead

/-!
The grammar reads types back from the glyphs that they are written in. One level of the rules reads what is written
in one token more than what the level below reads.
-/

namespace Accessors.Parsing

open Glyph (trees blank mark word lifetime literal group keyword colons comma plus between weightAll unsafeWord fnWord)

variable {r : Rules} {n : Nat}

/-! Paths. -/

theorem reads_projectionRounds (nests : Nests r n) {segments : List Segment} (some : segments ≠ [])
    (made : ∀ s ∈ segments, s.Made) (faithful : segmentsFaithful segments = true)
    (small : weightAll (between colons (segments.map Segment.glyphs)) ≤ n + 1) {after : List Glyph}
    (quiet : quiet (trees after) = true) {rounds : Nat} (enough : segments.length ≤ rounds) :
    Reads (projectionRounds false rounds) r (between colons (segments.map Segment.glyphs) ++ after) segments after := by
  induction segments generalizing rounds with
  | nil => exact absurd rfl some
  | cons s segments ih =>
      obtain ⟨rounds, rfl⟩ := Nat.exists_eq_succ_of_ne_zero (Nat.ne_of_gt (Nat.lt_of_lt_of_le (Nat.succ_pos _) enough))
      simp only [segmentsFaithful, Bool.and_eq_true] at faithful
      have own := made s List.mem_cons_self
      have weight := Nat.le_trans (Glyph.weight_le_between colons (List.mem_map_of_mem (f := Segment.glyphs)
        (List.mem_cons_self : s ∈ s :: segments))) small
      cases segments with
      | nil =>
          refine Reads.bind (reads_segment nests own faithful.1 weight (quiet_ends quiet).angle) ?_
          exact Reads.bind (Reads.noOp (quiet_ends quiet |>.colons)) (Reads.pure [s] after)
      | cons t segments =>
          have later := ih (List.cons_ne_nil t segments) (fun u member => made u (List.mem_cons_of_mem s member))
            faithful.2 (by simp only [List.map_cons, between, Glyph.weight_append] at small ⊢; omega)
            (Nat.le_of_succ_le_succ enough)
          have shape : between colons ((s :: t :: segments).map Segment.glyphs) ++ after
              = s.glyphs ++ (colons ++ (between colons ((t :: segments).map Segment.glyphs) ++ after)) := by
            simp [between]
          rw [shape]
          refine Reads.bind (reads_segment nests own faithful.1 weight (by rw [path_glyphs]; rfl)) ?_
          exact Reads.bind (Reads.someOp rfl rfl) (Reads.bind later (Reads.pure (s :: t :: segments) after))

/-- The glyphs of a path. -/
def pathGlyphs (rooted : Bool) (segments : List Segment) : List Glyph :=
  (if rooted then colons else []) ++ between colons (segments.map Segment.glyphs)

theorem reads_path (nests : Nests r n) {rooted : Bool} {segments : List Segment} (heads : HeadsPath rooted segments)
    (made : ∀ s ∈ segments, s.Made) (faithful : segmentsFaithful segments = true)
    (small : weightAll (pathGlyphs rooted segments) ≤ n + 1) {after : List Glyph} (quiet : quiet (trees after) = true) :
    Reads (typePath false) r (pathGlyphs rooted segments ++ after) (.path rooted segments) after := by
  simp only [pathGlyphs, Glyph.weight_append] at small
  have tail := reads_segments nests heads.1 made faithful (by omega) (quiet_ends quiet).angle (quiet_ends quiet).segment
  cases rooted with
  | true =>
      refine Reads.bind (Reads.noOp rfl) ?_
      exact Reads.bind (Reads.someOp rfl rfl) (Reads.bind tail (Reads.pure _ after))
  | false =>
      obtain ⟨s, more, rfl⟩ := List.exists_cons_of_ne_nil heads.1
      refine Reads.bind (Reads.noOp (by simp only [pathGlyphs]; rw [path_glyphs]; rfl)) ?_
      refine Reads.bind (Reads.noOp (by simp only [pathGlyphs]; rw [path_glyphs]; rfl)) ?_
      exact Reads.bind tail (Reads.pure _ after)

theorem reads_projection (nests : Nests r n) {subject : Ty} {traitPath rest : List Segment} (inner : subject.Made true)
    (trait : ∀ s ∈ traitPath, s.Made) (some : rest ≠ []) (made : ∀ s ∈ rest, s.Made)
    (faithful : (Ty.projection subject false traitPath rest).faithful = true)
    (small : weightAll (Ty.projection subject false traitPath rest).glyphs ≤ n + 1) {after : List Glyph}
    (quiet : quiet (trees after) = true) :
    Reads (typePath false) r ((Ty.projection subject false traitPath rest).glyphs ++ after)
      (.projection subject false traitPath rest) after := by
  simp only [Ty.faithful, Bool.not_false, Bool.true_and, Bool.and_eq_true] at faithful
  obtain ⟨⟨subjectFaithful, traitFaithful⟩, restFaithful⟩ := faithful
  have weights : weightAll subject.glyphs ≤ n
      ∧ weightAll (between colons (traitPath.map Segment.glyphs)) ≤ n
      ∧ weightAll (between colons (rest.map Segment.glyphs)) ≤ n + 1 := by
    cases traitPath <;>
      simp only [Ty.glyphs, segment_glyphs_eq, Glyph.weight_cons, Glyph.weight_append, Glyph.weight,
        Glyph.weight_nil, List.map_cons, List.map_nil, between] at small ⊢ <;>
      omega
  have tail : Reads (do
        takeOp ['>']
        takeOp [':', ':']
        let rest ← projectionRounds false ((← get).rest.length + 1)
        return Ty.projection subject false traitPath rest) r
      (mark '>' :: (colons ++ (between colons (rest.map Segment.glyphs) ++ after)))
      (.projection subject false traitPath rest) after := by
    refine Reads.bind (Reads.op rfl rfl) (Reads.bind (Reads.op rfl rfl) (Reads.get fun c ahead => ?_))
    have listed : rest.length ≤ (trees (between colons (rest.map Segment.glyphs))).length :=
      Reads.length_le_between colons fun s _ => by rw [Segment.glyphs_eq]; exact List.cons_ne_nil _ _
    refine Reads.bind (reads_projectionRounds nests some made restFaithful weights.2.2 quiet ?_) (Reads.pure _ after)
    have written : c.rest = trees (between colons (rest.map Segment.glyphs) ++ after) := ahead
    rw [written, Glyph.trees_length_append]
    omega
  cases traitPath with
  | nil =>
      have shape : (Ty.projection subject false [] rest).glyphs ++ after = mark '<' :: (subject.glyphs
          ++ mark '>' :: (colons ++ (between colons (rest.map Segment.glyphs) ++ after))) := by
        simp [Ty.glyphs, segment_glyphs_eq]
      rw [shape]
      refine Reads.bind (Reads.someOp rfl rfl) ?_
      refine Reads.bind (nests.ty inner subjectFaithful weights.1 rfl fun _ => rfl) ?_
      exact Reads.bind (Reads.noWord rfl) (Reads.bind (Reads.pure _ _) tail)
  | cons first more =>
      have shape : (Ty.projection subject false (first :: more) rest).glyphs ++ after = mark '<' :: (subject.glyphs
          ++ blank :: keyword "as" :: blank :: (between colons ((first :: more).map Segment.glyphs)
            ++ mark '>' :: (colons ++ (between colons (rest.map Segment.glyphs) ++ after)))) := by
        simp [Ty.glyphs, segment_glyphs_eq]
      rw [shape]
      refine Reads.bind (Reads.someOp rfl rfl) ?_
      refine Reads.bind (nests.ty inner subjectFaithful weights.1 rfl fun _ => rfl) ?_
      refine Reads.bind (Reads.someWord rfl _) (Reads.bind (Reads.noOp ?_) (Reads.bind ?_ (Reads.bind (Reads.pure _ _) tail)))
      · rw [path_glyphs]
        rfl
      · exact reads_segments nests (List.cons_ne_nil _ _) trait traitFaithful (by omega) rfl rfl

/-- What a type that is read by its path may begin with. -/
structure OpensPath (ts : List TokenTree) : Prop where
  paren : Ahead.opens .paren ts = false
  function : Ahead.functionType ts = false
  path : Ahead.pathType ts = true
  noFor : Ahead.word "for" ts = false

theorem opens_pathType {rooted : Bool} {segments : List Segment} (heads : HeadsPath rooted segments)
    (after : List Glyph) : OpensPath (trees (pathGlyphs rooted segments ++ after)) := by
  cases rooted with
  | true => exact ⟨rfl, rfl, rfl, rfl⟩
  | false =>
      obtain ⟨s, more, rfl⟩ := List.exists_cons_of_ne_nil heads.1
      have own : s.name.Heads := heads.2 rfl s rfl
      have other : ∀ w ∈ ["for", "fn", "unsafe", "extern"], s.name.text ≠ w := by
        have known : ∀ w ∈ ["for", "fn", "unsafe", "extern"], w ∈ reserved ∧ w ∉ ["super", "self", "Self", "crate"] := by
          decide
        exact fun w listed => own.not_word (known w listed).1 (known w listed).2
      simp only [pathGlyphs]
      rw [path_glyphs]
      refine ⟨rfl, by simp [Ahead.functionType, Ahead.word, other], ?_, by simp [Ahead.word, other]⟩
      rcases own with free | listed
      · have unreserved : s.name.text ∉ reserved := free
        simp [Ahead.pathType, Ahead.ident, unreserved]
      · simp [Ahead.pathType, Ahead.pathWord, Ahead.word] at listed ⊢
        rcases listed with same | same | same | same <;> simp [same]

/-- A path without a leading separator may stand behind a binder. -/
theorem bindable_path {segments : List Segment} (heads : HeadsPath false segments) (after : List Glyph) :
    Ahead.bindable (trees (pathGlyphs false segments ++ after)) = true := by
  obtain ⟨s, more, rfl⟩ := List.exists_cons_of_ne_nil heads.1
  have own : s.name.Heads := heads.2 rfl s rfl
  have other : s.name.text ≠ "dyn" := own.not_word (by decide) (by decide)
  simp only [pathGlyphs]
  rw [path_glyphs]
  rcases own with free | listed
  · have unreserved : s.name.text ∉ reserved := free
    simp [Ahead.bindable, Ahead.ident, Ahead.word, unreserved, other]
  · simp [Ahead.bindable, Ahead.pathWord, Ahead.word, other] at listed ⊢
    rcases listed with same | same | same | same <;> simp [same]

/-- A path that no macro's mark follows. -/
theorem reads_noMacro {t : Ty} {before after : List Glyph} (inner : Reads (typePath false) r before t after)
    (noMark : Ahead.op ['!'] (trees after) = false) :
    Reads (do
      let ty ← typePath false
      if ← ahead fun t => isModPath ty && Ahead.op ['!'] t && !Ahead.op ['!', '='] t then
        takeOp ['!']
        let _ ← takeGroup
        return (ty, true)
      else return (ty, false)) r before (t, false) after :=
  Reads.bind inner (Reads.ifNot (by simp [noMark]) (Reads.pure (t, false) after))

section

variable {rooted : Bool} {segments : List Segment}

theorem reads_pathAlone (nests : Nests r n) {sums : Bool} (heads : HeadsPath rooted segments)
    (made : ∀ s ∈ segments, s.Made) (faithful : segmentsFaithful segments = true)
    (small : weightAll (pathGlyphs rooted segments) ≤ n + 1) {after : List Glyph} (quiet : quiet (trees after) = true)
    (noPlus : sums = true → Ahead.op ['+'] (trees after) = false) :
    Reads (pathType sums none) r (pathGlyphs rooted segments ++ after) (.path rooted segments) after := by
  have path := reads_noMacro (reads_path nests heads made faithful small quiet) (quiet_ends quiet).mark
  have alone : (sums && Ahead.op ['+'] (trees after)) = false := by
    cases sums <;> simp_all
  exact Reads.captured path fun _ => Reads.bind (Reads.ahead alone) (Reads.pure _ after)

theorem reads_boundTrait (nests : Nests r n) {sums : Bool} {binder : Binder} (heads : HeadsPath rooted segments)
    (made : ∀ s ∈ segments, s.Made) (faithful : segmentsFaithful segments = true)
    (small : weightAll (pathGlyphs rooted segments) ≤ n + 1) {after : List Glyph} (quiet : quiet (trees after) = true)
    (noPlus : sums = true → Ahead.op ['+'] (trees after) = false) :
    Reads (pathType sums (some binder)) r (pathGlyphs rooted segments ++ after)
      (.object false [.trait false false (some binder) rooted segments]) after := by
  have path := reads_noMacro (reads_path nests heads made faithful small quiet) (quiet_ends quiet).mark
  have alone : (sums && Ahead.op ['+'] (trees after)) = false := by
    cases sums <;> simp_all
  exact Reads.captured path fun _ => Reads.bind (Reads.ahead alone) (Reads.pure _ after)

theorem reads_pathSum (nests : Nests r n) (binder : Option Binder) (heads : HeadsPath rooted segments)
    (made : ∀ s ∈ segments, s.Made) (faithful : segmentsFaithful segments = true)
    (small : weightAll (pathGlyphs rooted segments) ≤ n + 1) {next : Bound} {more : List Bound}
    (sum : Added n (next :: more)) {after : List Glyph} (quiet : quiet (trees after) = true)
    (noPlus : Ahead.op ['+'] (trees after) = false) :
    Reads (pathType true binder) r
      (pathGlyphs rooted segments ++ (between plus ([] :: (next :: more).map Bound.glyphs) ++ after))
      (.object false (.trait false false binder rooted segments :: next :: more)) after := by
  have whole : Reads (typePath false) r
      (pathGlyphs rooted segments ++ (between plus ([] :: (next :: more).map Bound.glyphs) ++ after))
      (.path rooted segments) (between plus ([] :: (next :: more).map Bound.glyphs) ++ after) :=
    reads_path nests heads made faithful small rfl
  have path := reads_noMacro whole rfl
  have added := sum.reads_addedBounds nests (fun _ => bound_of_opensBound) quiet noPlus
  have sees : (true && Ahead.op ['+'] (trees (between plus ([] :: (next :: more).map Bound.glyphs) ++ after))) = true := rfl
  refine Reads.captured path fun _ => Reads.bind (Reads.ahead sees) ?_
  cases binder <;> exact Reads.bind added (Reads.pure _ after)

end

/-! Parentheses. -/

theorem reads_single (nests : Nests r n) {t : Ty} (made : t.Made true) (faithful : t.faithful = true)
    (small : weightAll t.glyphs ≤ n) : Reads parenthesized r t.glyphs (.single t) [] := by
  have opens := opens_type made faithful []
  have inner : Reads (nested (.ty true)) r (t.glyphs ++ []) t [] := nests.ty made faithful small rfl fun _ => rfl
  rw [List.append_nil] at opens inner
  have none := opensType_excludes opens
  have front := lifetime_of_opensType opens
  refine Reads.ifNot (List.isEmpty_eq_false_iff.mpr none.solid) ?_
  cases leads : t.leadsLifetime with
  | true =>
      rw [leads] at front
      exact Reads.ifSeen front (Reads.bind inner (Reads.pure _ []))
  | false =>
      rw [leads] at front
      refine Reads.ifNot front (Reads.ifNot (none.op '?' (by decide) []) ?_)
      exact Reads.bind inner (Reads.bind (Reads.noOp rfl) (Reads.pure _ []))

/-- The elements of a tuple, of which the first has a comma behind it. -/
theorem reads_elements (nests : Nests r n) {first : Ty} {more : List Ty} (made : first.Made true)
    (noLifetime : first.leadsLifetime = false) (faithful : first.faithful = true) (small : weightAll first.glyphs ≤ n)
    {rest : List Glyph} (others : Reads (commaList (nested (.ty true))) r rest more []) :
    Reads parenthesized r (first.glyphs ++ mark ',' :: rest) (.tuple (first :: more)) [] := by
  have opens := opens_type made faithful (mark ',' :: rest)
  have inner : Reads (nested (.ty true)) r (first.glyphs ++ mark ',' :: rest) first (mark ',' :: rest) :=
    nests.ty made faithful small rfl fun _ => rfl
  have none := opensType_excludes opens
  have front := lifetime_of_opensType opens
  rw [noLifetime] at front
  refine Reads.ifNot (List.isEmpty_eq_false_iff.mpr none.solid) (Reads.ifNot front ?_)
  refine Reads.ifNot (none.op '?' (by decide) []) (Reads.bind inner ?_)
  exact Reads.bind (Reads.someOp rfl rfl) (Reads.bind others (Reads.pure _ []))

theorem reads_tuple (nests : Nests r n) (sums : Bool) {elements : List Ty} (made : ∀ t ∈ elements, t.Made true)
    (noLifetime : ∀ first, elements.head? = some first → first.leadsLifetime = false)
    (faithful : tysFaithful elements = true) (small : weightAll (Ty.tuple elements).glyphs ≤ n + 1)
    (after : List Glyph) : Reads (parenType sums) r ((Ty.tuple elements).glyphs ++ after) (.tuple elements) after := by
  have each := tys_faithful_iff.mp faithful
  match elements with
  | [] => exact Reads.bind (a := .tuple []) (Reads.within (Reads.ifSeen rfl (Reads.pure _ [])) after) (Reads.pure _ after)
  | [only] =>
      simp only [Ty.glyphs, Glyph.weight_cons, Glyph.weight_append, Glyph.weight, Glyph.weight_nil] at small
      have others : Reads (commaList (nested (.ty true))) r [] [] [] :=
        Reads.get fun _ _ => Reads.ifSeen rfl (Reads.pure [] [])
      have inside := reads_elements nests (made only List.mem_cons_self) (noLifetime only rfl)
        (each only List.mem_cons_self) (by omega) others
      exact Reads.bind (Reads.within inside after) (Reads.pure _ after)
  | first :: second :: more =>
      have shape : (Ty.tuple (first :: second :: more)).glyphs
          = [group .paren (first.glyphs ++ mark ',' :: blank :: between comma ((second :: more).map Ty.glyphs))] := by
        simp [Ty.glyphs, ty_glyphs_eq, between]
      rw [shape] at small ⊢
      simp only [Glyph.weight_cons, Glyph.weight_append, Glyph.weight, Glyph.weight_nil] at small
      have others : Reads (commaList (nested (.ty true))) r (blank :: between comma ((second :: more).map Ty.glyphs))
          (second :: more) [] := reads_types nests (fun t member => made t (List.mem_cons_of_mem first member))
        (tys_faithful_iff.mpr fun t member => each t (List.mem_cons_of_mem first member)) (by omega)
      have inside := reads_elements nests (made first List.mem_cons_self) (noLifetime first rfl)
        (each first List.mem_cons_self) (by omega) others
      exact Reads.bind (Reads.within inside after) (Reads.pure _ after)

theorem reads_paren (nests : Nests r n) {sums : Bool} {inner : Ty} (made : inner.Made true)
    (faithful : inner.faithful = true) (small : weightAll inner.glyphs ≤ n) {after : List Glyph}
    (noPlus : sums = true → Ahead.op ['+'] (trees after) = false) :
    Reads (parenType sums) r (group .paren inner.glyphs :: after) (.paren inner) after := by
  have inside := reads_single nests made faithful small
  have alone : (sums && Ahead.op ['+'] (trees after)) = false := by
    cases sums <;> simp_all
  refine Reads.bind (Reads.within inside after) ?_
  cases found : parenBound? inner with
  | none =>
      simp only [found]
      exact Reads.pure _ after
  | some first =>
      simp only [found]
      exact Reads.ifNot alone (Reads.pure _ after)

/-- The first bound of a sum in parentheses is read as a type. -/
theorem reads_parenSum (nests : Nests r n) {binder : Option Binder} {rooted : Bool} {segments : List Segment}
    (heads : HeadsPath rooted segments) (made : ∀ s ∈ segments, s.Made) (unrooted : binder.isSome = true → rooted = false)
    (plain : plainBinder binder = true) (faithful : segmentsFaithful segments = true)
    (small : weightAll (traitGlyphs false binder rooted segments) ≤ n) {next : Bound} {more : List Bound}
    (sum : Added n (next :: more)) {after : List Glyph} (quiet : quiet (trees after) = true)
    (noPlus : Ahead.op ['+'] (trees after) = false) :
    Reads (parenType true) r (group .paren (traitGlyphs false binder rooted segments)
        :: (between plus ([] :: (next :: more).map Bound.glyphs) ++ after))
      (.object false (.trait true false binder rooted segments :: next :: more)) after := by
  have added : Reads (addedBounds fun _ => true) r _ _ after :=
    sum.reads_addedBounds nests (fun _ _ => rfl) quiet noPlus
  cases binder with
  | none =>
      have shape : traitGlyphs false none rooted segments = (Ty.path rooted segments).glyphs := by
        simp [traitGlyphs, Glyph.binder, Ty.glyphs, segment_glyphs_eq]
      rw [shape] at small ⊢
      have inside := reads_single nests (.path heads made) (by simpa [Ty.faithful] using faithful) small
      refine Reads.bind (Reads.within inside _) (Reads.ifSeen rfl (Reads.bind added (Reads.pure _ after)))
  | some params =>
      obtain rfl := unrooted rfl
      have shape : traitGlyphs false (some params) false segments
          = (Ty.object false [.trait false false (some params) false segments]).glyphs := by
        simp [traitGlyphs, Ty.glyphs, boundGlyphs, Bound.glyphs, segment_glyphs_eq, between]
      rw [shape] at small ⊢
      have inside := reads_single nests (.boundTrait heads made)
        (by simpa [Ty.faithful, loneTrait, boundsFaithful, Bound.faithful] using ⟨plain, faithful⟩) small
      refine Reads.bind (Reads.within inside _) (Reads.ifSeen rfl (Reads.bind added (Reads.pure _ after)))

/-- The first bound of a sum that is relaxed and in parentheses. -/
theorem reads_relaxedSum (nests : Nests r n) {sums rooted : Bool} {segments : List Segment} {more : List Bound}
    (made : (Bound.trait true true none rooted segments).Made) (faithful : segmentsFaithful segments = true)
    (small : weightAll (traitGlyphs true none rooted segments) ≤ n + 1) (sum : Added n more) {after : List Glyph}
    (quiet : quiet (trees after) = true) (noPlus : Ahead.op ['+'] (trees after) = false) :
    Reads (parenType sums) r (group .paren (traitGlyphs true none rooted segments)
        :: (between plus ([] :: more.map Bound.glyphs) ++ after))
      (.object false (.trait true true none rooted segments :: more)) after := by
  have first : Reads (traitBound true true) r (traitGlyphs true none rooted segments ++ [])
      (some (.trait true true none rooted segments)) [] :=
    reads_traitBound nests made rfl faithful small rfl fun _ => rfl
  rw [List.append_nil] at first
  have inside : Reads parenthesized r (traitGlyphs true none rooted segments)
      (.firstBound (.trait true true none rooted segments)) [] := by
    refine Reads.ifNot rfl (Reads.ifNot rfl (Reads.ifSeen rfl ?_))
    exact Reads.bind first (Reads.pure _ [])
  have added : Reads (addedBounds fun _ => true) r _ _ after :=
    sum.reads_addedBounds nests (fun _ _ => rfl) quiet noPlus
  exact Reads.bind (Reads.within inside _) (Reads.bind added (Reads.pure _ after))

/-! Function pointers. -/

/-- Words that a type may begin with and that name no parameter. -/
def typeWords : List String := ["dyn", "impl", "for", "unsafe", "extern", "fn"]

/-- Whether what is ahead is no name with a single colon behind it. -/
def unnamed (ts : List TokenTree) : Bool :=
  !Ahead.anyIdent ts || typeWords.any (Ahead.word · ts) || !Ahead.op [':'] (Ahead.next ts) || Ahead.colons (Ahead.next ts)

theorem path_unnamed {rooted : Bool} {segments : List Segment} (heads : HeadsPath rooted segments)
    (made : ∀ s ∈ segments, s.Made) {after : List Glyph} (noColon : Ahead.op [':'] (trees after) = false) :
    unnamed (trees (pathGlyphs rooted segments ++ after)) = true := by
  cases rooted with
  | true => rfl
  | false =>
      obtain ⟨s, more, rfl⟩ := List.exists_cons_of_ne_nil heads.1
      simp only [pathGlyphs]
      rw [path_glyphs]
      cases made s List.mem_cons_self with
      | plain names =>
          cases more with
          | nil => simp [unnamed, Segment.argGlyphs, between, Ahead.next, noColon]
          | cons t more => simp [unnamed, Segment.argGlyphs, between, Ahead.next, Ahead.colons, Ahead.op, Glyph.joins]
      | @angle name turbofish args takes each =>
          cases turbofish <;> simp [unnamed, Segment.argGlyphs, Ahead.next, Ahead.colons, Ahead.op, Glyph.joins]

theorem type_unnamed {t : Ty} {sums : Bool} (made : t.Made sums) (faithful : t.faithful = true) {after : List Glyph}
    (noColon : Ahead.op [':'] (trees after) = false) : unnamed (trees (t.glyphs ++ after)) = true := by
  cases made with
  | @path _ rooted segments heads each =>
      simpa [Ty.glyphs, segment_glyphs_eq, pathGlyphs] using path_unnamed heads each noColon
  | @projection _ subject traitRooted traitPath rest inner each some more => cases traitPath <;> rfl
  | reference inner apart => rfl
  | pointer inner => rfl
  | slice inner => rfl
  | array => simp [Ty.faithful] at faithful
  | @tuple _ elements each apart =>
      rcases elements with _ | ⟨first, _ | ⟨second, rest⟩⟩ <;> rfl
  | paren inner => rfl
  | never => rfl
  | infer =>
      simp [Ty.glyphs, unnamed, Ahead.next, noColon]
  | dyn each names one => rfl
  | opaqueImpl each names one => rfl
  | boundTrait heads each => rfl
  | loneTrait heads each => simp [Ty.faithful, loneTrait] at faithful
  | @pathSum binder rooted segments next more heads each unrooted later =>
      cases binder with
      | none =>
          have free : unnamed (trees (pathGlyphs rooted segments
              ++ (plus ++ (between plus (next.glyphs :: more.map Bound.glyphs) ++ after)))) = true :=
            path_unnamed heads each rfl
          simpa [Ty.glyphs, bound_glyphs_eq, Bound.glyphs, Glyph.binder, segment_glyphs_eq, between, pathGlyphs] using free
      | some params => rfl
  | parenSum heads each unrooted later => rfl
  | @relaxedSum _ rooted segments more first later => cases more <;> rfl
  | @lifetimeSum _ l more each names => cases more <;> rfl
  | @function _ binder isUnsafe abi inputs variadic output each receiver result =>
      cases binder with
      | some params => rfl
      | none => cases isUnsafe with
        | true => rfl
        | false => rcases abi with _ | _ | name <;> rfl
  | verbatim => simp [Ty.faithful] at faithful

/-- A word that a type begins with is no name of a parameter. -/
theorem name_of_unnamed {ts : List TokenTree} (free : unnamed ts = true)
    (name : (Ahead.ident ts || Ahead.word "_" ts || Ahead.word "self" ts) = true) :
    Ahead.op [':'] (Ahead.next ts) = false ∨ Ahead.colons (Ahead.next ts) = true := by
  match ts, name with
  | .leaf (.ident own) :: rest, name =>
      have other : ∀ w ∈ typeWords, own.text ≠ w := by
        rintro w listed rfl
        have known : ∀ w ∈ typeWords, w ∈ reserved ∧ w ≠ "_" ∧ w ≠ "self" := by decide
        obtain ⟨listed, one, two⟩ := known own.text listed
        simp [Ahead.ident, Ahead.word, listed, one, two] at name
      simp only [unnamed, Ahead.anyIdent, Ahead.word, Bool.not_true, Bool.false_or, Bool.or_eq_true,
        List.any_eq_true, beq_iff_eq, Bool.not_eq_true'] at free
      rcases free with (⟨w, listed, same⟩ | single) | double
      · exact absurd same (other w listed)
      · exact Or.inl single
      · exact Or.inr double

theorem inputName_of_unnamed {ts : List TokenTree} (free : unnamed ts = true) (receiver : Bool) :
    Ahead.inputName receiver ts = false := by
  rw [Bool.eq_false_iff]
  intro found
  simp only [Ahead.inputName, Bool.and_eq_true, Bool.not_eq_true'] at found
  obtain ⟨⟨name, colon⟩, single⟩ := found
  have named : (Ahead.ident ts || Ahead.word "_" ts || Ahead.word "self" ts) = true := by
    cases receiver <;> simp_all
  rcases name_of_unnamed free named with absent | double
  · simp [absent] at colon
  · simp [double] at single

theorem variadic_of_unnamed {ts : List TokenTree} (free : unnamed ts = true)
    (noDots : Ahead.op ['.', '.', '.'] ts = false) : Ahead.variadic ts = false := by
  rw [Ahead.variadic, noDots, Bool.false_or, Bool.eq_false_iff]
  intro found
  simp only [Bool.and_eq_true] at found
  obtain ⟨⟨name, colon⟩, dots⟩ := found
  rcases name_of_unnamed free (by rw [name]; rfl) with absent | double
  · simp [absent] at colon
  · -- Behind the first of two colons stands the second.
    match ts, double with
    | _ :: .leaf (.punct _ _) :: .leaf (.punct c _) :: _, double =>
        simp only [Ahead.next, List.tail_cons, Ahead.colons, Ahead.op, Bool.and_eq_true, beq_iff_eq] at double
        simp only [Ahead.next, List.tail_cons, Ahead.op, ← double.2] at dots
        simp at dots

theorem reads_functionInput (nests : Nests r n) {first : Bool} {i : Input} (made : i.Made) (faithful : i.faithful = true)
    (receiver : ∀ name t, i = .mk (some name) t → name.text = "self" → first = true) (small : weightAll i.glyphs ≤ n)
    {after : List Glyph} (behind : after = [] ∨ ∃ more, after = comma ++ more) :
    Reads (functionInput first) r (i.glyphs ++ after) i after := by
  have noColon : Ahead.op [':'] (trees after) = false := by rcases behind with rfl | ⟨more, rfl⟩ <;> rfl
  have quiet : quiet (trees after) = true := by rcases behind with rfl | ⟨more, rfl⟩ <;> rfl
  have noPlus : Ahead.op ['+'] (trees after) = false := by rcases behind with rfl | ⟨more, rfl⟩ <;> rfl
  cases made with
  | @unnamed t made =>
      have faithful : t.faithful = true := faithful
      have front := opensType_excludes (opens_type made faithful after)
      have free := type_unnamed made faithful noColon
      change Reads (functionInput first) r (t.glyphs ++ after) _ _
      refine Reads.bind (reads_no_attributes (front.op '#' (by decide) [])) ?_
      refine Reads.asWritten (a := some (Input.mk none t)) rfl ?_ fun _ => Reads.pure _ after
      have noMut : Ahead.mutSelf (trees (t.glyphs ++ after)) = false := by
        simp [Ahead.mutSelf, front.mut']
      have type := nests.ty made faithful small quiet fun _ => noPlus
      cases first with
      | true =>
          refine Reads.bind (Reads.ahead noMut) (Reads.ifNot (inputName_of_unnamed free true) ?_)
          exact Reads.bind (Reads.pure none _) (Reads.ifNot (by simp [noMut]) (Reads.bind type (Reads.pure _ after)))
      | false =>
          refine Reads.bind (Reads.pure false _) (Reads.ifNot (inputName_of_unnamed free false) ?_)
          exact Reads.bind (Reads.pure none _) (Reads.ifNot (by simp [noMut]) (Reads.bind type (Reads.pure _ after)))
  | @named name t kind made =>
      have faithful : t.faithful = true := faithful
      simp only [Input.glyphs, Glyph.weight_cons] at small
      have type := nests.ty made faithful (by omega) quiet fun _ => noPlus
      have front := opensType_excludes (opens_type made faithful after)
      have noMut : Ahead.mutSelf (trees (t.glyphs ++ after)) = false := by
        simp [Ahead.mutSelf, front.mut']
      have noReceiver : Ahead.mutSelf (trees (word name :: mark ':' :: blank :: (t.glyphs ++ after))) = false := by
        have other : name.text ≠ "mut" := by
          rintro same
          rcases kind with free | wild | self
          · exact free (by rw [same]; decide)
          · simp [same] at wild
          · simp [same] at self
        simp [Ahead.mutSelf, Ahead.word, other]
      have named : Ahead.inputName first (trees (word name :: mark ':' :: blank :: (t.glyphs ++ after))) = true := by
        have listed : (Ahead.ident (trees (word name :: mark ':' :: blank :: (t.glyphs ++ after)))
            || Ahead.word "_" (trees (word name :: mark ':' :: blank :: (t.glyphs ++ after)))
            || (first && Ahead.word "self" (trees (word name :: mark ':' :: blank :: (t.glyphs ++ after))))) = true := by
          rcases kind with free | wild | self
          · have unreserved : name.text ∉ reserved := free
            simp [Ahead.ident, unreserved]
          · simp [Ahead.word, wild]
          · simp [Ahead.word, self, receiver name t rfl self]
        rw [Ahead.inputName, listed]
        rfl
      change Reads (functionInput first) r (word name :: mark ':' :: blank :: (t.glyphs ++ after)) _ _
      refine Reads.bind (reads_no_attributes rfl) ?_
      refine Reads.asWritten (a := some (Input.mk (some name) t)) rfl ?_ fun _ => Reads.pure _ after
      cases first with
      | true =>
          refine Reads.bind (Reads.ahead noReceiver) (Reads.ifSeen named ?_)
          refine Reads.bind (Reads.anyIdent name _) (Reads.bind (Reads.op rfl rfl) (Reads.bind (Reads.pure (some name) _) ?_))
          exact Reads.ifNot (by simp [noMut]) (Reads.bind type (Reads.pure _ after))
      | false =>
          refine Reads.bind (Reads.pure false _) (Reads.ifSeen named ?_)
          refine Reads.bind (Reads.anyIdent name _) (Reads.bind (Reads.op rfl rfl) (Reads.bind (Reads.pure (some name) _) ?_))
          exact Reads.ifNot (by simp [noMut]) (Reads.bind type (Reads.pure _ after))

/-- What a parameter does not begin with. -/
theorem input_excludes {i : Input} (made : i.Made) (faithful : i.faithful = true) {after : List Glyph}
    (noColon : Ahead.op [':'] (trees after) = false) :
    trees (i.glyphs ++ after) ≠ [] ∧ Ahead.op ['#'] (trees (i.glyphs ++ after)) = false
      ∧ Ahead.variadic (trees (i.glyphs ++ after)) = false := by
  cases made with
  | @unnamed t made =>
      have front := opensType_excludes (opens_type made faithful after)
      exact ⟨front.solid, front.op '#' (by decide) [],
        variadic_of_unnamed (type_unnamed made faithful noColon) (front.op '.' (by decide) ['.', '.'])⟩
  | @named name t kind made =>
      have front := opensType_excludes (opens_type made faithful after)
      have noDots : Ahead.op ['.', '.', '.'] (Ahead.next (Ahead.next (trees ((Input.mk (some name) t).glyphs ++ after))))
          = false := front.op '.' (by decide) ['.', '.']
      exact ⟨List.cons_ne_nil _ _, rfl, by rw [Ahead.variadic, noDots, Bool.and_false]; rfl⟩

/-- The dots of a function pointer that takes further arguments. -/
def dotGlyphs (variadic : Bool) : List (List Glyph) :=
  if variadic then [[mark '.', mark '.', mark '.']] else []

theorem reads_functionInputs (nests : Nests r n) (first : Bool) {variadic : Bool} {inputs : List Input}
    (made : ∀ i ∈ inputs, i.Made) (faithful : inputsFaithful inputs = true)
    (receiver : ∀ i ∈ if first then inputs.tail else inputs, ∀ name t, i = .mk (some name) t → name.text ≠ "self")
    (small : weightAll (between comma (inputs.map Input.glyphs ++ dotGlyphs variadic)) ≤ n) {rounds : Nat}
    (enough : inputs.length < rounds) :
    Reads (functionInputs first rounds) r (between comma (inputs.map Input.glyphs ++ dotGlyphs variadic))
      (inputs, variadic) [] := by
  induction inputs generalizing first rounds with
  | nil =>
      obtain ⟨rounds, rfl⟩ := Nat.exists_eq_succ_of_ne_zero (Nat.ne_of_gt enough)
      cases variadic with
      | false => exact Reads.ifSeen rfl (Reads.pure _ [])
      | true =>
          refine Reads.ifNot rfl (Reads.bind (reads_no_attributes rfl) (Reads.ifSeen rfl ?_))
          refine Reads.bind (Reads.ahead rfl) (Reads.bind (Reads.op rfl rfl) ?_)
          exact Reads.bind (Reads.noOp rfl) (Reads.pure _ [])
  | cons i inputs ih =>
      obtain ⟨rounds, rfl⟩ := Nat.exists_eq_succ_of_ne_zero (Nat.ne_of_gt (Nat.lt_of_le_of_lt (Nat.zero_le _) enough))
      simp only [inputsFaithful, Bool.and_eq_true] at faithful
      have own := made i List.mem_cons_self
      have allowed : ∀ name t, i = .mk (some name) t → name.text = "self" → first = true := by
        intro name t same self
        cases first with
        | true => rfl
        | false => exact absurd self (receiver i List.mem_cons_self name t same)
      have weight : weightAll i.glyphs ≤ n :=
        Nat.le_trans (Glyph.weight_le_between comma (List.mem_append_left _ List.mem_cons_self)) small
      -- Nothing stands behind the last parameter, a comma behind every other.
      cases behind : inputs.map Input.glyphs ++ dotGlyphs variadic with
      | nil =>
          obtain ⟨none, noDots⟩ := List.append_eq_nil_iff.mp behind
          obtain rfl := List.map_eq_nil_iff.mp none
          have no : variadic = false := by
            cases variadic with
            | false => rfl
            | true => cases noDots
          subst no
          have shape : between comma ([i].map Input.glyphs ++ dotGlyphs false) = i.glyphs ++ [] := by
            simp [dotGlyphs, between]
          obtain ⟨solid, noMark, noDots⟩ := input_excludes own faithful.1 (rfl : Ahead.op [':'] (trees []) = false)
          rw [shape]
          refine Reads.ifNot (List.isEmpty_eq_false_iff.mpr solid) (Reads.bind (reads_no_attributes noMark) ?_)
          refine Reads.ifNot noDots (Reads.bind (reads_functionInput nests own faithful.1 allowed weight (Or.inl rfl)) ?_)
          exact Reads.ifSeen rfl (Reads.pure _ [])
      | cons next more =>
          have shape : between comma ((i :: inputs).map Input.glyphs ++ dotGlyphs variadic)
              = i.glyphs ++ (comma ++ between comma (inputs.map Input.glyphs ++ dotGlyphs variadic)) := by
            rw [List.map_cons, List.cons_append, behind]
            simp [between]
          rw [shape] at small ⊢
          have others : ∀ other ∈ inputs, ∀ name t, other = .mk (some name) t → name.text ≠ "self" := by
            cases first with
            | true => exact receiver
            | false => exact fun other member => receiver other (List.mem_cons_of_mem i member)
          have later : Reads (functionInputs false rounds) r _ _ [] :=
            ih false (fun other member => made other (List.mem_cons_of_mem i member)) faithful.2 others
              (by simp only [Glyph.weight_append] at small; omega) (Nat.lt_of_succ_lt_succ enough)
          obtain ⟨solid, noMark, noDots⟩ := input_excludes own faithful.1
            (rfl : Ahead.op [':'] (trees (comma ++ between comma (inputs.map Input.glyphs ++ dotGlyphs variadic))) = false)
          refine Reads.ifNot (List.isEmpty_eq_false_iff.mpr solid) (Reads.bind (reads_no_attributes noMark) ?_)
          refine Reads.ifNot noDots
            (Reads.bind (reads_functionInput nests own faithful.1 allowed weight (Or.inr ⟨_, rfl⟩)) ?_)
          exact Reads.ifNot rfl (Reads.bind (Reads.op rfl rfl) (Reads.bind later (Reads.pure _ [])))

/-- The glyphs of a function pointer behind its binder. -/
def functionGlyphs (isUnsafe : Bool) (abi : Option (Option TextLiteral)) (inputs : List Input) (variadic : Bool)
    (output : Option Ty) : List Glyph :=
  (if isUnsafe then [unsafeWord, blank] else []) ++ (Glyph.abi abi
    ++ fnWord :: group .paren (between comma (inputs.map Input.glyphs ++ dotGlyphs variadic)) :: outputGlyphs output)

/-- A function pointer from its `extern` on. -/
def functionEnd (binder : Option Binder) (isUnsafe : Bool) : Parser Ty := do
  let abi ← abi?
  takeWord "fn"
  let (inputs, variadic) ← within .paren do functionInputs true ((← get).rest.length + 1)
  let output ← returnType false
  return Ty.function binder isUnsafe abi inputs variadic output

theorem reads_abi (abi : Option (Option TextLiteral)) (after : List Glyph) :
    Reads abi? r (Glyph.abi abi ++ keyword "fn" :: after) abi (keyword "fn" :: after) := by
  match abi with
  | none => exact Reads.bind (Reads.noWord rfl) (Reads.pure none _)
  | some none => exact Reads.bind (Reads.someWord rfl _) (Reads.ifNot rfl (Reads.pure _ _))
  | some (some name) =>
      refine Reads.bind (Reads.someWord rfl _) (Reads.ifSeen name.isText ?_)
      exact Reads.bind (Reads.textLiteral name _) (Reads.pure _ _)

theorem reads_function (nests : Nests r n) {binder : Option Binder} {isUnsafe variadic : Bool}
    {abi : Option (Option TextLiteral)} {inputs : List Input} {output : Option Ty} (made : ∀ i ∈ inputs, i.Made)
    (receiver : ∀ i ∈ inputs.tail, ∀ name t, i = .mk (some name) t → name.text ≠ "self")
    (result : ∀ t, output = some t → t.Made false) (faithful : inputsFaithful inputs = true)
    (outFaithful : outputFaithful output = true)
    (small : weightAll (functionGlyphs isUnsafe abi inputs variadic output) ≤ n + 1) {after : List Glyph}
    (quiet : quiet (trees after) = true)
    (noPlus : outputSwallows output = true → Ahead.op ['+'] (trees after) = false) :
    Reads (functionType binder) r (functionGlyphs isUnsafe abi inputs variadic output ++ after)
      (.function binder isUnsafe abi inputs variadic output) after := by
  have weights : weightAll (between comma (inputs.map Input.glyphs ++ dotGlyphs variadic)) ≤ n
      ∧ weightAll (outputGlyphs output) ≤ n := by
    simp only [functionGlyphs, Glyph.weight_cons, Glyph.weight_append, Glyph.weight] at small
    omega
  have inside : Reads (do functionInputs true ((← get).rest.length + 1)) r
      (between comma (inputs.map Input.glyphs ++ dotGlyphs variadic)) (inputs, variadic) [] := by
    refine Reads.get fun c ahead => reads_functionInputs nests true made faithful receiver weights.1 ?_
    have solid : ∀ piece ∈ inputs.map Input.glyphs ++ dotGlyphs variadic, trees (id piece) ≠ [] := by
      intro piece member
      rcases List.mem_append.mp member with listed | dots
      · obtain ⟨i, own, rfl⟩ := List.mem_map.mp listed
        have excluded := input_excludes (made i own) (inputs_faithful_iff.mp faithful i own)
          (rfl : Ahead.op [':'] (trees []) = false)
        simpa using excluded.1
      · cases variadic with
        | false => cases dots
        | true => simp_all [dotGlyphs]
    have listed := Reads.length_le_between comma solid
    rw [List.map_id, List.length_append, List.length_map] at listed
    rw [ahead]
    omega
  have tail : Reads (functionEnd binder isUnsafe) r
      (Glyph.abi abi ++ keyword "fn" :: group .paren (between comma (inputs.map Input.glyphs ++ dotGlyphs variadic))
        :: (outputGlyphs output ++ after))
      (.function binder isUnsafe abi inputs variadic output) after := by
    refine Reads.bind (reads_abi abi _) (Reads.bind (Reads.word rfl _) (Reads.bind (Reads.within inside _) ?_))
    exact Reads.bind (reads_output nests result outFaithful weights.2 quiet noPlus) (Reads.pure _ after)
  have shape : functionGlyphs isUnsafe abi inputs variadic output ++ after
      = (if isUnsafe then [keyword "unsafe", blank] else []) ++ (Glyph.abi abi ++ keyword "fn"
        :: group .paren (between comma (inputs.map Input.glyphs ++ dotGlyphs variadic)) :: (outputGlyphs output ++ after)) := by
    simp [functionGlyphs]
  rw [shape]
  cases isUnsafe with
  | true => exact Reads.bind (Reads.someWord rfl _) tail
  | false =>
      refine Reads.bind (Reads.noWord ?_) tail
      rcases abi with _ | _ | name <;> rfl

/-! Types. -/

section

variable {sums : Bool} {t : Ty} {after : List Glyph}

theorem reads_projectionType (nests : Nests r n) {subject : Ty} {traitPath rest : List Segment}
    (inner : subject.Made true) (trait : ∀ s ∈ traitPath, s.Made) (some : rest ≠ []) (made : ∀ s ∈ rest, s.Made)
    (faithful : (Ty.projection subject false traitPath rest).faithful = true)
    (small : weightAll (Ty.projection subject false traitPath rest).glyphs ≤ n + 1)
    (quiet : quiet (trees after) = true) :
    Reads (typeOf sums) r ((Ty.projection subject false traitPath rest).glyphs ++ after)
      (.projection subject false traitPath rest) after := by
  have path := reads_noMacro (reads_projection nests inner trait some made faithful small quiet) (quiet_ends quiet).mark
  have front : ∃ more, (Ty.projection subject false traitPath rest).glyphs ++ after = mark '<' :: more := by
    cases traitPath <;> exact ⟨_, rfl⟩
  obtain ⟨more, opens⟩ := front
  rw [opens] at path ⊢
  refine Reads.bind (reads_noBinder rfl) (Reads.bind (Reads.ahead rfl) ?_)
  refine Reads.ifNot rfl (Reads.ifNot rfl (Reads.ifSeen rfl ?_))
  exact Reads.captured path fun _ => Reads.pure _ after

theorem reads_reference (nests : Nests r n) {l : Option Lifetime} {isMut : Bool} (made : t.Made false)
    (apart : l = none → isMut = false → t.leadsLifetime = false) (faithful : t.faithful = true)
    (small : weightAll t.glyphs ≤ n) (quiet : quiet (trees after) = true)
    (noPlus : t.swallows = true → Ahead.op ['+'] (trees after) = false) :
    Reads (typeOf sums) r ((Ty.reference l isMut t).glyphs ++ after) (.reference l isMut t) after := by
  have target := nests.ty made faithful small quiet noPlus
  have opens := opens_type made faithful after
  have shape : (Ty.reference l isMut t).glyphs ++ after = mark '&' :: (l.elim [] (fun l => [lifetime l, blank])
      ++ ((if isMut then [keyword "mut", blank] else []) ++ (t.glyphs ++ after))) := by
    cases l <;> simp [Ty.glyphs]
  rw [shape]
  refine Reads.bind (reads_noBinder rfl) (Reads.bind (Reads.ahead rfl) ?_)
  refine Reads.ifNot rfl (Reads.ifNot rfl (Reads.ifNot rfl (Reads.ifNot rfl (Reads.ifNot rfl ?_))))
  refine Reads.bind (Reads.noOp rfl) (Reads.bind (Reads.someOp rfl rfl) ?_)
  have behind : Reads (do
        let isMut ← takeWord? "mut"
        return Ty.reference l isMut (← nested (.ty false))) r
      ((if isMut then [keyword "mut", blank] else []) ++ (t.glyphs ++ after)) (.reference l isMut t) after := by
    cases isMut with
    | false => exact Reads.bind (Reads.noWord (opensType_excludes opens).mut') (Reads.bind target (Reads.pure _ after))
    | true => exact Reads.bind (Reads.someWord rfl _) (Reads.bind target (Reads.pure _ after))
  cases l with
  | some l => exact Reads.bind (Reads.someLifetime l _) behind
  | none =>
      refine Reads.bind (Reads.noLifetime ?_) behind
      cases isMut with
      | false => exact (lifetime_of_opensType opens).trans (apart rfl rfl)
      | true => rfl

theorem reads_pointer (nests : Nests r n) {isMut : Bool} (made : t.Made false) (faithful : t.faithful = true)
    (small : weightAll t.glyphs ≤ n) (quiet : quiet (trees after) = true)
    (noPlus : t.swallows = true → Ahead.op ['+'] (trees after) = false) :
    Reads (typeOf sums) r ((Ty.pointer isMut t).glyphs ++ after) (.pointer isMut t) after := by
  have target := nests.ty made faithful small quiet noPlus
  refine Reads.bind (reads_noBinder rfl) (Reads.bind (Reads.ahead rfl) ?_)
  refine Reads.ifNot rfl (Reads.ifNot rfl (Reads.ifNot rfl (Reads.ifNot rfl (Reads.ifNot rfl ?_))))
  refine Reads.bind (Reads.someOp rfl rfl) ?_
  cases isMut with
  | false => exact Reads.bind (Reads.someWord rfl _) (Reads.bind target (Reads.pure _ after))
  | true => exact Reads.bind (Reads.noWord rfl) (Reads.bind (Reads.someWord rfl _) (Reads.bind target (Reads.pure _ after)))

theorem reads_slice (nests : Nests r n) (made : t.Made true) (faithful : t.faithful = true)
    (small : weightAll t.glyphs ≤ n) : Reads (typeOf sums) r ((Ty.slice t).glyphs ++ after) (.slice t) after := by
  have element : Reads (nested (.ty true)) r (t.glyphs ++ []) t [] := nests.ty made faithful small rfl fun _ => rfl
  rw [List.append_nil] at element
  refine Reads.bind (reads_noBinder rfl) (Reads.bind (Reads.ahead rfl) ?_)
  refine Reads.ifNot rfl (Reads.ifNot rfl (Reads.ifNot rfl (Reads.ifNot rfl (Reads.ifSeen rfl ?_))))
  refine Reads.within (Reads.bind element (Reads.bind (Reads.noOp rfl) ?_)) after
  exact Reads.pure (Ty.slice t) []

/-- The bounds of a trait object. -/
theorem reads_objectBounds (nests : Nests r n) {place : Place} {bounds : List Bound} (sum : Added n bounds)
    (names : namesTrait bounds = true) (one : sums = false → bounds.length = 1) (quiet : quiet (trees after) = true)
    (noPlus : (sums || boundsSwallow bounds) = true → Ahead.op ['+'] (trees after) = false) :
    Reads (objectBounds place sums) r (between plus (bounds.map Bound.glyphs) ++ after) bounds after := by
  have some : bounds ≠ [] := by
    rintro rfl
    cases names
  refine Reads.bind (reads_boundSum nests sum some one quiet noPlus) ?_
  rw [names]
  exact Reads.pure bounds after

theorem reads_dyn (nests : Nests r n) {bounds : List Bound} (sum : Added n bounds) (names : namesTrait bounds = true)
    (one : sums = false → bounds.length = 1) (quiet : quiet (trees after) = true)
    (noPlus : (sums || boundsSwallow bounds) = true → Ahead.op ['+'] (trees after) = false) :
    Reads (typeOf sums) r ((Ty.object true bounds).glyphs ++ after) (.object true bounds) after := by
  have shape : (Ty.object true bounds).glyphs ++ after
      = keyword "dyn" :: blank :: (between plus (bounds.map Bound.glyphs) ++ after) := by
    simp [Ty.glyphs, bound_glyphs_eq]
  rw [shape]
  refine Reads.bind (reads_noBinder rfl) (Reads.bind (Reads.ahead rfl) ?_)
  refine Reads.ifNot rfl (Reads.ifNot rfl (Reads.ifNot rfl (Reads.ifSeen rfl (Reads.get fun _ _ => ?_))))
  refine Reads.asWritten (a := (bounds, false)) rfl ?_ fun _ => Reads.pure _ after
  obtain ⟨b, more, rfl⟩ : ∃ b more, bounds = b :: more := by
    cases bounds with
    | nil => cases names
    | cons b more => exact ⟨b, more, rfl⟩
  have opens := sum.opens (between plus ([] :: more.map Bound.glyphs) ++ after)
  rw [← List.append_assoc, ← Glyph.between_cons] at opens
  refine Reads.bind (Reads.word rfl _) (Reads.bind (Reads.noOp ?_) ?_)
  · exact no_op_of_opensBound opens (by decide) (by decide)
  · exact Reads.bind (reads_objectBounds nests sum names one quiet noPlus) (Reads.pure _ after)

theorem reads_impl (nests : Nests r n) {bounds : List Bound} (sum : Added n bounds)
    (names : bounds.all Bound.namesNone = false) (one : sums = false → bounds.length = 1)
    (quiet : quiet (trees after) = true)
    (noPlus : (sums || boundsSwallow bounds) = true → Ahead.op ['+'] (trees after) = false) :
    Reads (typeOf sums) r ((Ty.opaqueImpl bounds).glyphs ++ after) (.opaqueImpl bounds) after := by
  have some : bounds ≠ [] := by
    rintro rfl
    cases names
  have shape : (Ty.opaqueImpl bounds).glyphs ++ after
      = keyword "impl" :: blank :: (between plus (bounds.map Bound.glyphs) ++ after) := by
    simp [Ty.glyphs, bound_glyphs_eq]
  rw [shape]
  refine Reads.bind (reads_noBinder rfl) (Reads.bind (Reads.ahead rfl) ?_)
  refine Reads.ifNot rfl (Reads.ifNot rfl (Reads.ifNot rfl (Reads.ifNot rfl (Reads.ifNot rfl ?_))))
  refine Reads.bind (Reads.noOp rfl) (Reads.bind (Reads.noOp rfl) (Reads.bind (Reads.noOp rfl) ?_))
  refine Reads.ifSeen rfl (Reads.get fun _ _ => Reads.bind (Reads.word rfl _) ?_)
  refine Reads.bind (reads_boundSum nests sum some one quiet noPlus) ?_
  rw [names]
  exact Reads.pure _ after

/-- A sum that begins with a lifetime. -/
theorem reads_lifetimeSum (nests : Nests r n) {l : Lifetime} {more : List Bound} (sum : Added n (.lifetime l :: more))
    (names : namesTrait more = true) (quiet : quiet (trees after) = true) (noPlus : Ahead.op ['+'] (trees after) = false) :
    Reads (typeOf sums) r ((Ty.object false (.lifetime l :: more)).glyphs ++ after) (.object false (.lifetime l :: more))
      after := by
  have shape : (Ty.object false (.lifetime l :: more)).glyphs ++ after
      = between plus ((Bound.lifetime l :: more).map Bound.glyphs) ++ after := by
    simp [Ty.glyphs, bound_glyphs_eq]
  have front : ∃ tail, between plus ((Bound.lifetime l :: more).map Bound.glyphs) ++ after = lifetime l :: tail := by
    cases more <;> exact ⟨_, rfl⟩
  obtain ⟨tail, opens⟩ := front
  have bounds : ∀ place, Reads (objectBounds place true) r _ (Bound.lifetime l :: more) after := fun place =>
    reads_objectBounds nests sum (by simpa [namesTrait] using names) (fun off => by cases off) quiet fun _ => noPlus
  rw [shape]
  rw [opens] at bounds ⊢
  refine Reads.bind (reads_noBinder rfl) (Reads.bind (Reads.ahead rfl) ?_)
  refine Reads.ifNot rfl (Reads.ifNot rfl (Reads.ifNot rfl (Reads.ifNot rfl (Reads.ifNot rfl ?_))))
  refine Reads.bind (Reads.noOp rfl) (Reads.bind (Reads.noOp rfl) (Reads.bind (Reads.noOp rfl) ?_))
  refine Reads.ifNot rfl (Reads.bind (Reads.noWord rfl) (Reads.ifSeen rfl (Reads.get fun c _ => ?_)))
  exact Reads.bind (bounds c.place) (Reads.pure _ after)

theorem reads_functionType {binder : Option Binder} {isUnsafe variadic : Bool}
    {abi : Option (Option TextLiteral)} {inputs : List Input} {output : Option Ty} (plain : plainBinder binder = true)
    (inner : Reads (functionType binder) r (functionGlyphs isUnsafe abi inputs variadic output ++ after) t after) :
    Reads (typeOf sums) r (Glyph.binder binder ++ (functionGlyphs isUnsafe abi inputs variadic output ++ after)) t
      after := by
  have front : ∃ name tail, functionGlyphs isUnsafe abi inputs variadic output ++ after = word name :: tail
      ∧ name.text ∈ ["unsafe", "extern", "fn"] := by
    match isUnsafe, abi with
    | true, _ => exact ⟨_, _, rfl, by decide⟩
    | false, none => exact ⟨_, _, rfl, by decide⟩
    | false, some none => exact ⟨_, _, rfl, by decide⟩
    | false, some (some _) => exact ⟨_, _, rfl, by decide⟩
  obtain ⟨name, tail, opens, listed⟩ := front
  rw [opens] at inner ⊢
  have noFor : Ahead.word "for" (trees (word name :: tail)) = false := by
    have other : name.text ≠ "for" := by
      rintro same
      rw [same] at listed
      exact absurd listed (by decide)
    simpa [Ahead.word] using other
  have function : Ahead.functionType (trees (word name :: tail)) = true := by
    simp only [List.mem_cons, List.not_mem_nil, or_false] at listed
    rcases listed with same | same | same <;> simp [Ahead.functionType, Ahead.word, same]
  have bindable : Ahead.bindable (trees (word name :: tail)) = true := by
    simp only [List.mem_cons, List.not_mem_nil, or_false] at listed
    rcases listed with same | same | same <;> simp [Ahead.bindable, Ahead.word, same]
  refine Reads.bind (reads_binder plain fun _ => noFor) (Reads.bind (Reads.ahead bindable) ?_)
  cases binder <;> exact Reads.ifNot rfl (Reads.ifSeen function inner)

/-- A path behind a binder, if there is one. -/
theorem reads_boundPath {binder : Option Binder} {rooted : Bool} {segments : List Segment} {behind : List Glyph}
    (heads : HeadsPath rooted segments) (unrooted : binder.isSome = true → rooted = false)
    (plain : plainBinder binder = true)
    (inner : Reads (pathType sums binder) r (pathGlyphs rooted segments ++ behind) t after) :
    Reads (typeOf sums) r (Glyph.binder binder ++ (pathGlyphs rooted segments ++ behind)) t after := by
  have opens := opens_pathType heads behind
  cases binder with
  | none =>
      refine Reads.bind (reads_noBinder opens.noFor) (Reads.bind (Reads.ahead rfl) ?_)
      exact Reads.ifNot opens.paren (Reads.ifNot opens.function (Reads.ifSeen opens.path inner))
  | some params =>
      obtain rfl := unrooted rfl
      refine Reads.bind (reads_binder plain fun _ => opens.noFor) (Reads.bind (Reads.ahead (bindable_path heads behind)) ?_)
      exact Reads.ifNot opens.paren (Reads.ifNot opens.function (Reads.ifSeen opens.path inner))

/-- A type that begins with a parenthesis. -/
theorem reads_opening {inside rest : List Glyph}
    (inner : Reads (parenType sums) r (group .paren inside :: rest) t after) :
    Reads (typeOf sums) r (group .paren inside :: rest) t after :=
  Reads.bind (reads_noBinder rfl) (Reads.bind (Reads.ahead rfl) (Reads.ifSeen rfl inner))

/-- A plus sign leaves room for the level below. -/
theorem added_weights {first : List Glyph} {more : List (List Glyph)} (some : more ≠ [])
    (small : weightAll (between plus (first :: more)) ≤ n + 1) :
    weightAll first ≤ n ∧ weightAll (between plus more) ≤ n := by
  obtain ⟨next, more, rfl⟩ := List.exists_cons_of_ne_nil some
  simp only [between, Glyph.weight_append, Glyph.weight_cons, Glyph.weight_nil, Glyph.weight] at small
  omega

/-- The bounds behind the first of a sum. -/
theorem added_of_sum {first : Bound} {more : List Bound} (each : ∀ b ∈ more, b.Made) (some : more ≠ [])
    (faithful : boundsFaithful (first :: more) = true)
    (small : weightAll (between plus ((first :: more).map Bound.glyphs)) ≤ n + 1) :
    weightAll first.glyphs ≤ n ∧ Added n more := by
  have weights := added_weights (by simpa using some) small
  simp only [boundsFaithful, Bool.and_eq_true] at faithful
  exact ⟨weights.1, .of_small each faithful.2 weights.2⟩

theorem object_glyphs (bounds : List Bound) :
    (Ty.object false bounds).glyphs = between plus (bounds.map Bound.glyphs) := by
  simp [Ty.glyphs, bound_glyphs_eq]

theorem trait_path_glyphs (binder : Option Binder) (rooted : Bool) (segments : List Segment) :
    traitGlyphs false binder rooted segments = Glyph.binder binder ++ pathGlyphs rooted segments := by
  simp [traitGlyphs, pathGlyphs]

theorem reads_sum (nests : Nests r n) {bounds : List Bound} (made : (Ty.object false bounds).Made sums)
    (faithful : (Ty.object false bounds).faithful = true)
    (small : weightAll (between plus (bounds.map Bound.glyphs)) ≤ n + 1) (quiet : quiet (trees after) = true)
    (noPlus : (sums || (Ty.object false bounds).swallows) = true → Ahead.op ['+'] (trees after) = false) :
    Reads (typeOf sums) r (between plus (bounds.map Bound.glyphs) ++ after) (.object false bounds) after := by
  have alone : sums = true → Ahead.op ['+'] (trees after) = false := fun on => noPlus (by rw [on]; rfl)
  simp only [Ty.faithful, Bool.and_eq_true, Bool.not_eq_true'] at faithful
  obtain ⟨notLone, faithful⟩ := faithful
  cases made with
  | @boundTrait _ binder segments heads each =>
      have whole : plainBinder (some binder) = true ∧ segmentsFaithful segments = true := by
        simpa [boundsFaithful, Bound.faithful] using faithful
      simp only [List.map_cons, List.map_nil, between, trait_glyphs, Bool.false_eq_true, if_false, trait_path_glyphs,
        Glyph.weight_append] at small
      simp only [List.map_cons, List.map_nil, between, trait_glyphs, Bool.false_eq_true, if_false, trait_path_glyphs,
        List.append_assoc]
      exact reads_boundPath heads (fun _ => rfl) whole.1 (reads_boundTrait nests heads each whole.2 (by omega) quiet alone)
  | loneTrait heads each => cases notLone
  | @pathSum binder rooted segments next more heads each unrooted later =>
      obtain ⟨weight, sum⟩ := added_of_sum later (List.cons_ne_nil _ _) faithful small
      have whole : plainBinder binder = true ∧ segmentsFaithful segments = true := by
        simp only [boundsFaithful, Bound.faithful, Bool.and_eq_true] at faithful
        exact faithful.1.1
      simp only [trait_glyphs, Bool.false_eq_true, if_false, trait_path_glyphs, Glyph.weight_append] at weight
      have path := reads_pathSum nests binder heads each whole.2 (by omega) sum quiet (alone rfl)
      rw [List.map_cons, Glyph.between_cons, trait_glyphs, if_neg (by decide), trait_path_glyphs, List.append_assoc,
        List.append_assoc]
      exact reads_boundPath heads unrooted whole.1 path
  | @parenSum binder rooted segments next more heads each unrooted later =>
      obtain ⟨weight, sum⟩ := added_of_sum later (List.cons_ne_nil _ _) faithful small
      have whole : plainBinder binder = true ∧ segmentsFaithful segments = true := by
        simp only [boundsFaithful, Bound.faithful, Bool.and_eq_true] at faithful
        exact faithful.1.1
      simp only [trait_glyphs, if_true, Glyph.weight_cons, Glyph.weight_nil, Glyph.weight] at weight
      rw [List.map_cons, Glyph.between_cons, trait_glyphs, if_pos rfl, List.append_assoc]
      exact reads_opening (reads_parenSum nests heads each unrooted whole.1 whole.2 (by omega) sum quiet (alone rfl))
  | @relaxedSum _ rooted segments more first later =>
      have sum : Added n more := by
        cases more with
        | nil => exact ⟨by simp, rfl, by simp⟩
        | cons next more => exact (added_of_sum later (List.cons_ne_nil _ _) faithful small).2
      have weight := Nat.le_trans (Glyph.weight_le_between plus (List.mem_map_of_mem (f := Bound.glyphs)
        (List.mem_cons_self : Bound.trait true true none rooted segments ∈ _ :: more))) small
      have whole : segmentsFaithful segments = true := by
        simp only [boundsFaithful, Bound.faithful, Bool.and_eq_true] at faithful
        exact faithful.1.1.2
      simp only [trait_glyphs, if_true, Glyph.weight_cons, Glyph.weight_nil, Glyph.weight] at weight
      rw [List.map_cons, Glyph.between_cons, trait_glyphs, if_pos rfl, List.append_assoc]
      exact reads_opening (reads_relaxedSum nests first whole (by omega) sum quiet (noPlus (by simp [Ty.swallows])))
  | @lifetimeSum _ l more each names =>
      obtain ⟨weight, sum⟩ := added_of_sum each (by rintro rfl; cases names) faithful small
      have whole : Added n (.lifetime l :: more) :=
        ⟨List.forall_mem_cons.mpr ⟨.lifetime, each⟩, faithful, List.forall_mem_cons.mpr ⟨weight, sum.small⟩⟩
      rw [← object_glyphs]
      exact reads_lifetimeSum nests whole names quiet (noPlus (by simp [Ty.swallows]))

theorem reads_type (nests : Nests r n) (made : t.Made sums) (faithful : t.faithful = true)
    (small : weightAll t.glyphs ≤ n + 1) (quiet : quiet (trees after) = true)
    (noPlus : (sums || t.swallows) = true → Ahead.op ['+'] (trees after) = false) :
    Reads (typeOf sums) r (t.glyphs ++ after) t after := by
  have alone : sums = true → Ahead.op ['+'] (trees after) = false := fun on => noPlus (by rw [on]; rfl)
  have stops : t.swallows = true → Ahead.op ['+'] (trees after) = false := fun on => noPlus (by rw [on, Bool.or_true])
  have object : ∀ {bounds}, (Ty.object false bounds).Made sums → (Ty.object false bounds).faithful = true →
      weightAll (Ty.object false bounds).glyphs ≤ n + 1 →
      ((sums || (Ty.object false bounds).swallows) = true → Ahead.op ['+'] (trees after) = false) →
      Reads (typeOf sums) r ((Ty.object false bounds).glyphs ++ after) (.object false bounds) after := by
    intro bounds made faithful small noPlus
    rw [object_glyphs] at small ⊢
    exact reads_sum nests made faithful small quiet noPlus
  cases made with
  | @path _ rooted segments heads each =>
      have shape : (Ty.path rooted segments).glyphs = pathGlyphs rooted segments := by
        simp [Ty.glyphs, segment_glyphs_eq, pathGlyphs]
      rw [shape] at small ⊢
      have path := reads_pathAlone nests heads each (by simpa [Ty.faithful] using faithful) small quiet alone
      exact reads_boundPath heads (fun on => by cases on) rfl path
  | @projection _ subject traitRooted traitPath rest inner each some more =>
      obtain rfl : traitRooted = false := by
        simp only [Ty.faithful, Bool.and_eq_true, Bool.not_eq_true'] at faithful
        exact faithful.1.1.1
      exact reads_projectionType nests inner each some more faithful small quiet
  | @reference _ l isMut target inner apart =>
      have weight : weightAll target.glyphs ≤ n := by
        simp only [Ty.glyphs, Glyph.weight_cons, Glyph.weight_append, Glyph.weight] at small
        omega
      exact reads_reference nests inner apart (by simpa [Ty.faithful] using faithful) weight quiet
        (by simpa [Ty.swallows] using stops)
  | @pointer _ isMut target inner =>
      have weight : weightAll target.glyphs ≤ n := by
        simp only [Ty.glyphs, Glyph.weight_cons, Glyph.weight] at small
        omega
      exact reads_pointer nests inner (by simpa [Ty.faithful] using faithful) weight quiet
        (by simpa [Ty.swallows] using stops)
  | @slice _ element inner =>
      have weight : weightAll element.glyphs ≤ n := by
        simp only [Ty.glyphs, Glyph.weight_cons, Glyph.weight_nil, Glyph.weight] at small
        omega
      exact reads_slice nests inner (by simpa [Ty.faithful] using faithful) weight
  | array => simp [Ty.faithful] at faithful
  | @tuple _ elements each apart =>
      have tuple := reads_tuple nests sums each apart (by simpa [Ty.faithful] using faithful) small after
      rcases elements with _ | ⟨first, _ | ⟨second, rest⟩⟩ <;> exact reads_opening tuple
  | @paren _ inner own =>
      have weight : weightAll inner.glyphs ≤ n := by
        simp only [Ty.glyphs, Glyph.weight_cons, Glyph.weight_nil, Glyph.weight] at small
        omega
      exact reads_opening (reads_paren nests own (by simpa [Ty.faithful] using faithful) weight alone)
  | never =>
      refine Reads.bind (reads_noBinder rfl) (Reads.bind (Reads.ahead rfl) ?_)
      refine Reads.ifNot rfl (Reads.ifNot rfl (Reads.ifNot rfl (Reads.ifNot rfl (Reads.ifNot rfl ?_))))
      refine Reads.bind (Reads.noOp rfl) (Reads.bind (Reads.noOp rfl) ?_)
      exact Reads.bind (Reads.someOp rfl rfl) (Reads.pure _ after)
  | infer =>
      refine Reads.bind (reads_noBinder rfl) (Reads.bind (Reads.ahead rfl) ?_)
      refine Reads.ifNot rfl (Reads.ifNot rfl (Reads.ifNot rfl (Reads.ifNot rfl (Reads.ifNot rfl ?_))))
      refine Reads.bind (Reads.noOp rfl) (Reads.bind (Reads.noOp rfl) (Reads.bind (Reads.noOp rfl) ?_))
      exact Reads.ifNot rfl (Reads.bind (Reads.someWord rfl _) (Reads.pure _ after))
  | @dyn _ bounds each names one =>
      have weight : weightAll (between plus (bounds.map Bound.glyphs)) ≤ n := by
        simp only [Ty.glyphs, bound_glyphs_eq, if_true, Glyph.weight_append, Glyph.weight_cons, Glyph.weight_nil,
          Glyph.weight] at small
        omega
      have sum : Added n bounds := .of_small each (by simpa [Ty.faithful, loneTrait] using faithful) weight
      exact reads_dyn nests sum names one quiet (by simpa [Ty.swallows] using noPlus)
  | @opaqueImpl _ bounds each names one =>
      have weight : weightAll (between plus (bounds.map Bound.glyphs)) ≤ n := by
        simp only [Ty.glyphs, bound_glyphs_eq, Glyph.weight_cons, Glyph.weight] at small
        omega
      have sum : Added n bounds := .of_small each (by simpa [Ty.faithful] using faithful) weight
      exact reads_impl nests sum names one quiet (by simpa [Ty.swallows] using noPlus)
  | boundTrait heads each => exact object (.boundTrait heads each) faithful small noPlus
  | loneTrait heads each => simp [Ty.faithful, loneTrait] at faithful
  | pathSum heads each unrooted later => exact object (.pathSum heads each unrooted later) faithful small noPlus
  | parenSum heads each unrooted later => exact object (.parenSum heads each unrooted later) faithful small noPlus
  | relaxedSum first later => exact object (.relaxedSum first later) faithful small noPlus
  | lifetimeSum each names => exact object (.lifetimeSum each names) faithful small noPlus
  | @function _ binder isUnsafe abi inputs variadic output each receiver result =>
      have shape : (Ty.function binder isUnsafe abi inputs variadic output).glyphs
          = Glyph.binder binder ++ functionGlyphs isUnsafe abi inputs variadic output := by
        simp [Ty.glyphs, functionGlyphs, dotGlyphs, input_glyphs_eq]
      have whole : (plainBinder binder = true ∧ inputsFaithful inputs = true) ∧ outputFaithful output = true := by
        simpa [Ty.faithful] using faithful
      rw [shape, Glyph.weight_append] at small
      have weight : weightAll (functionGlyphs isUnsafe abi inputs variadic output) ≤ n + 1 := by omega
      rw [shape, List.append_assoc]
      exact reads_functionType whole.1.1 (reads_function nests each receiver result whole.1.2 whole.2 weight quiet
        (by simpa [Ty.swallows] using stops))
  | verbatim => simp [Ty.faithful] at faithful

end

/-! The levels. -/

/-- Something is written for every type, bound and list of arguments. -/
theorem no_nests_zero : Nests r 0 where
  ty made faithful small := by
    have solid := (opensType_excludes (opens_type made faithful [])).solid
    rw [List.append_nil] at solid
    exact absurd small (Nat.not_le_of_gt (Glyph.weight_pos solid))
  bound made faithful small := by
    have opens := opens_bound made faithful []
    rw [List.append_nil] at opens
    have solid : trees _ ≠ [] := fun none => by rw [none] at opens; cases opens
    exact absurd small (Nat.not_le_of_gt (Glyph.weight_pos solid))
  args _ _ small := absurd small (by omega)

/-- Every level reads what is written in so many tokens. -/
theorem nests_rules (n : Nat) : Nests (rules n) n := by
  induction n with
  | zero => exact no_nests_zero
  | succ n ih =>
      constructor
      · intro sums t after made faithful small quiet noPlus
        exact reads_type ih made faithful small quiet noPlus
      · intro captures consts b after made faithful small quiet noPlus
        exact reads_bound ih made faithful small quiet noPlus
      · intro args after made faithful small
        exact reads_angleArgs ih made faithful small after

end Accessors.Parsing
