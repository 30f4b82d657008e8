import Accessors.Proofs.TypeOpenings

/-!
The grammar reads paths, bounds and arguments back from the glyphs that they are written in, where it reads back
the types and bounds in them, which are written in fewer tokens.
-/

namespace Accessors.Parsing

open Glyph (trees blank mark word lifetime literal group keyword colons comma plus between weightAll)

variable {r : Rules} {n : Nat}

/-- What the rules at hand read back: types, bounds and arguments that are written in at most so many tokens. -/
structure Nests (r : Rules) (n : Nat) : Prop where
  ty : ∀ {sums t after}, Ty.Made sums t → t.faithful = true → weightAll t.glyphs ≤ n → quiet (trees after) = true →
    ((sums || t.swallows) = true → Ahead.op ['+'] (trees after) = false) →
    Reads (nested (.ty sums)) r (t.glyphs ++ after) t after
  bound : ∀ {captures consts b after}, Bound.Made b → b.faithful = true → weightAll b.glyphs ≤ n →
    quiet (trees after) = true → (b.swallows = true → Ahead.op ['+'] (trees after) = false) →
    Reads (nested (.bound captures consts)) r (b.glyphs ++ after) b after
  args : ∀ {args after}, (∀ a ∈ args, GenericArg.Made a) → argsFaithful args = true →
    weightAll (between comma (args.map GenericArg.glyphs)) + 2 ≤ n →
    Reads (nested .angleArgs) r (mark '<' :: (between comma (args.map GenericArg.glyphs) ++ mark '>' :: after)) args
      after

/-! Binders. -/

theorem no_attributes_run {c : Cursor} (none : Ahead.op ['#'] c.rest = false) :
    outerAttributes.run r c = some (.ok (.none, c)) := by
  simp [outerAttributes, iterate, iterateRounds, run_bind, run_get, run_ahead, run_pure, Parser.andThen, none]

theorem reads_no_attributes {before : List Glyph} (none : Ahead.op ['#'] (trees before) = false) :
    Reads outerAttributes r before .none before :=
  fun _ read => ⟨read, no_attributes_run none⟩

theorem reads_lifetime_param (l : Lifetime) {after : List Glyph} (alone : Ahead.op [':'] (trees after) = false) :
    Reads (captured genericParam) r (lifetime l :: after) (.lifetime l [], [.lifetime l]) after := by
  intro stray read
  have step : genericParam.run r ⟨trees (lifetime l :: after), stray, []⟩
      = some (.ok (.lifetime l [], ⟨trees after, stray, [.lifetime l]⟩)) := by
    rw [genericParam, run_bind, no_attributes_run rfl]
    simp [run_bind, run_get, run_ahead, run_pure, run_consume, Parser.andThen, Ahead.ident, Ahead.lifetime,
      takeLifetime, takeOp?, Cursor.skip, alone]
  refine ⟨[.lifetime l] ++ read, ?_⟩
  change Parser.andThen (genericParam.run r _) _ = _
  rw [step]
  rfl

theorem reads_noBinder {before : List Glyph} (noFor : Ahead.word "for" (trees before) = false) :
    Reads binder? r before none before :=
  Reads.bind (Reads.noWord noFor) (Reads.pure none before)

theorem reads_binder {binder : Option Binder} (plain : plainBinder binder = true) {after : List Glyph}
    (noFor : binder = none → Ahead.word "for" (trees after) = false) :
    Reads binder? r (Glyph.binder binder ++ after) binder after := by
  cases binder with
  | none => exact reads_noBinder (noFor rfl)
  | some params =>
      have lone : ∀ param ∈ params, ∃ l, param = [.lifetime l] := by
        intro param member
        have one := List.all_eq_true.mp plain param member
        match param, one with
        | [.lifetime l], _ => exact ⟨l, rfl⟩
      have listed : ∃ read : List (GenericParam × List Lexeme), read.map Prod.snd = params
          ∧ ∀ x ∈ read, ∃ l, x = (.lifetime l [], [.lifetime l]) := by
        clear plain noFor
        induction params with
        | nil => exact ⟨[], rfl, by simp⟩
        | cons param params ih =>
            obtain ⟨l, rfl⟩ := lone param List.mem_cons_self
            obtain ⟨read, same, each⟩ := ih fun other member => lone other (List.mem_cons_of_mem _ member)
            exact ⟨(.lifetime l [], [.lifetime l]) :: read, by rw [List.map_cons, same],
              List.forall_mem_cons.mpr ⟨⟨l, rfl⟩, each⟩⟩
      obtain ⟨read, same, each⟩ := listed
      have list : Reads (listUntil (Ahead.op ['>']) (captured genericParam) (takeOp [','])) r
          (between comma (read.map (Glyph.param ∘ Prod.snd)) ++ mark '>' :: blank :: after) read
          (mark '>' :: blank :: after) := by
        refine Reads.listUntil ?_ rfl ?_ (fun _ => rfl) ?_
        · intro x member
          obtain ⟨l, rfl⟩ := each x member
          simp [Glyph.param]
        · intro x member rest
          obtain ⟨l, rfl⟩ := each x member
          rfl
        · intro x member rest behind
          obtain ⟨l, rfl⟩ := each x member
          refine reads_lifetime_param l ?_
          rcases behind with rfl | ⟨more, rfl⟩ <;> rfl
      have shape : Glyph.binder (some params) ++ after
          = keyword "for" :: mark '<' :: (between comma (read.map (Glyph.param ∘ Prod.snd)) ++ mark '>' :: blank :: after) := by
        simp [Glyph.binder, ← same, Function.comp_def]
      rw [shape]
      refine (Reads.someWord rfl _).bind ((Reads.op rfl rfl).bind (list.bind ((Reads.op rfl rfl).bind ?_)))
      rw [← same]
      exact Reads.pure _ after

/-! Paths. -/

/-- A name that is neither a segment by itself nor the word `Self`. -/
theorem free_of_names {name : Ident} (names : name.Names) {after : List Glyph}
    (bare : Ahead.bareSegment (trees (word name :: after)) = false) (own : name.text ≠ "Self") : name.Free := by
  simp only [Ahead.bareSegment, Glyph.trees_word, Ahead.word, Bool.or_eq_false_iff, beq_eq_false_iff_ne] at bare
  obtain ⟨⟨⟨notSuper, notSelf⟩, notCrate⟩, notTry⟩ := bare
  rcases names with (free | listed) | same
  · exact free
  · simp_all
  · exact absurd same notTry

theorem reads_segment (nests : Nests r n) {s : Segment} (made : s.Made) (faithful : s.faithful = true)
    (small : weightAll s.glyphs ≤ n + 1) {after : List Glyph} (ends : Ahead.angleArgs false (trees after) = false) :
    Reads (segment false) r (s.glyphs ++ after) s after := by
  cases made with
  | @plain name names =>
      by_cases bare : Ahead.bareSegment (trees (word name :: after)) = true
      · exact Reads.ifSeen bare ((Reads.anyIdent name after).bind (Reads.pure _ after))
      · have other : Ahead.bareSegment (trees (word name :: after)) = false := by simpa using bare
        refine Reads.ifNot other ?_
        by_cases own : name.text = "Self"
        · refine Reads.ifSeen (by simpa [Segment.glyphs, Ahead.word] using own) ?_
          exact (Reads.anyIdent name after).bind (Reads.ifNot ends (Reads.pure _ after))
        · refine Reads.ifNot (by simpa [Segment.glyphs, Ahead.word] using own) ?_
          exact (Reads.ident (free_of_names names other own) after).bind (Reads.ifNot ends (Reads.pure _ after))
  | @angle name turbofish args takes each =>
      have inner : argsFaithful args = true := by simpa [Segment.faithful] using faithful
      have weight : weightAll (between comma (args.map GenericArg.glyphs)) + 2 ≤ n := by
        cases turbofish <;> simp [Segment.glyphs, arg_glyphs_eq, Glyph.weight] at small <;> omega
      have list : Reads (nested .angleArgs) r (mark '<' :: (between comma (args.map GenericArg.glyphs) ++ mark '>' :: after))
          args after := nests.args each inner weight
      have noOperator := args_no_operator each inner after
      have tail : Reads (do
            let turbofish ← takeOp? [':', ':']
            return Segment.angle name turbofish (← nested .angleArgs)) r
          ((if turbofish then colons else []) ++ mark '<' :: (between comma (args.map GenericArg.glyphs) ++ mark '>' :: after))
          (.angle name turbofish args) after := by
        cases turbofish with
        | true => exact Reads.bind (Reads.someOp rfl rfl) (list.bind (Reads.pure _ after))
        | false => exact Reads.bind (Reads.noOp rfl) (list.bind (Reads.pure _ after))
      have opens : Ahead.angleArgs false (trees ((if turbofish then colons else [])
          ++ mark '<' :: (between comma (args.map GenericArg.glyphs) ++ mark '>' :: after))) = true := by
        cases turbofish with
        | true => rfl
        | false => simp [Ahead.angleArgs, Ahead.op, noOperator]
      have shape : (Segment.angle name turbofish args).glyphs ++ after = word name :: ((if turbofish then colons else [])
          ++ mark '<' :: (between comma (args.map GenericArg.glyphs) ++ mark '>' :: after)) := by
        cases turbofish <;> simp [Segment.glyphs, arg_glyphs_eq]
      rw [shape]
      generalize (if turbofish then colons else [])
        ++ mark '<' :: (between comma (args.map GenericArg.glyphs) ++ mark '>' :: after) = before at tail opens
      have plain : Ahead.bareSegment (trees (word name :: before)) = false := by
        have other : ∀ w ∈ ["super", "self", "crate", "try"], name.text ≠ w := by
          rintro w listed rfl
          have known : ∀ w ∈ ["super", "self", "crate", "try"], w ∈ reserved ∧ w ≠ "Self" := by decide
          rcases takes with free | same
          · exact free (known _ listed).1
          · exact (known _ listed).2 same
        simp [Ahead.bareSegment, Ahead.word, other]
      refine Reads.ifNot plain ?_
      by_cases own : name.text = "Self"
      · refine Reads.ifSeen (by simpa [Ahead.word] using own) ?_
        exact (Reads.anyIdent name before).bind (Reads.ifSeen opens tail)
      · have free : name.Free := takes.resolve_right own
        refine Reads.ifNot (by simpa [Ahead.word] using own) ?_
        exact (Reads.ident free before).bind (Reads.ifSeen opens tail)

theorem reads_segmentRounds (nests : Nests r n) {segments : List Segment} (some : segments ≠ [])
    (made : ∀ s ∈ segments, s.Made) (faithful : segmentsFaithful segments = true)
    (small : weightAll (between colons (segments.map Segment.glyphs)) ≤ n + 1) {after : List Glyph}
    (ends : Ahead.angleArgs false (trees after) = false)
    (stops : (Ahead.colons (trees after) && !Ahead.opens .paren ((trees after).drop 2)) = false) {rounds : Nat}
    (enough : segments.length ≤ rounds) :
    Reads (segmentRounds false rounds) r (between colons (segments.map Segment.glyphs) ++ after) segments after := by
  induction segments generalizing rounds with
  | nil => exact absurd rfl some
  | cons s segments ih =>
      obtain ⟨rounds, rfl⟩ := Nat.exists_eq_succ_of_ne_zero (Nat.ne_of_gt (Nat.lt_of_lt_of_le (Nat.succ_pos _) enough))
      simp only [segmentsFaithful, Bool.and_eq_true] at faithful
      have own := made s List.mem_cons_self
      cases segments with
      | nil =>
          refine (reads_segment nests own faithful.1 small ends).bind ?_
          exact Reads.ifNot stops (Reads.pure [s] after)
      | cons t segments =>
          have weights : weightAll s.glyphs ≤ n + 1
              ∧ weightAll (between colons ((t :: segments).map Segment.glyphs)) ≤ n + 1 := by
            simp only [List.map_cons, between, Glyph.weight_append] at small ⊢
            omega
          have later := ih (List.cons_ne_nil t segments) (fun u member => made u (List.mem_cons_of_mem s member))
            faithful.2 weights.2 (Nat.le_of_succ_le_succ enough)
          have shape : between colons ((s :: t :: segments).map Segment.glyphs) ++ after
              = s.glyphs ++ (colons ++ (between colons ((t :: segments).map Segment.glyphs) ++ after)) := by
            simp [between]
          have next : ∃ tail, between colons ((t :: segments).map Segment.glyphs) ++ after = word t.name :: tail :=
            ⟨_, by rw [path_glyphs]; rfl⟩
          obtain ⟨tail, opens⟩ := next
          rw [shape]
          refine (reads_segment nests own faithful.1 weights.1 (by rw [opens]; rfl)).bind ?_
          refine Reads.ifSeen (by rw [opens]; rfl) ((Reads.op rfl rfl).bind (later.bind ?_))
          exact Reads.pure (s :: t :: segments) after

theorem reads_segments (nests : Nests r n) {segments : List Segment} (some : segments ≠ [])
    (made : ∀ s ∈ segments, s.Made) (faithful : segmentsFaithful segments = true)
    (small : weightAll (between colons (segments.map Segment.glyphs)) ≤ n + 1) {after : List Glyph}
    (ends : Ahead.angleArgs false (trees after) = false)
    (stops : (Ahead.colons (trees after) && !Ahead.opens .paren ((trees after).drop 2)) = false) :
    Reads (Parsing.segments false) r (between colons (segments.map Segment.glyphs) ++ after) segments after := by
  refine Reads.get fun c ahead => reads_segmentRounds nests some made faithful small ends stops ?_
  have listed : segments.length ≤ (trees (between colons (segments.map Segment.glyphs))).length :=
    Reads.length_le_between colons fun s _ => by rw [Segment.glyphs_eq]; exact List.cons_ne_nil _ _
  rw [ahead, Glyph.trees_length_append]
  omega

/-- What follows a path is left alone. -/
structure PathEnds (after : List TokenTree) : Prop where
  angle : Ahead.angleArgs false after = false
  colons : Ahead.op [':', ':'] after = false
  segment : (Ahead.colons after && !Ahead.opens .paren (after.drop 2)) = false
  call : Ahead.callArgs after = false
  arrow : Ahead.op ['-', '>'] after = false
  mark : Ahead.op ['!'] after = false

theorem quiet_ends {ts : List TokenTree} (quiet : quiet ts = true) : PathEnds ts := by
  simp only [Parsing.quiet, Bool.and_eq_true, Bool.not_eq_true', Ahead.colons] at quiet
  constructor <;> simp [Ahead.angleArgs, Ahead.callArgs, Ahead.colons, quiet]

/-! Bounds. -/

theorem reads_output (nests : Nests r n) {output : Option Ty} (made : ∀ t, output = some t → t.Made false)
    (faithful : outputFaithful output = true) (small : weightAll (outputGlyphs output) ≤ n) {after : List Glyph}
    (quiet : quiet (trees after) = true)
    (noPlus : outputSwallows output = true → Ahead.op ['+'] (trees after) = false) :
    Reads (returnType false) r (outputGlyphs output ++ after) output after := by
  cases output with
  | none => exact Reads.bind (Reads.noOp (quiet_ends quiet).arrow) (Reads.pure none after)
  | some t =>
      have weight : weightAll t.glyphs ≤ n := by
        simp only [outputGlyphs, Glyph.weight_cons] at small
        omega
      have inner := nests.ty (made t rfl) faithful weight quiet (fun on => noPlus (by simpa [outputSwallows] using on))
      exact Reads.bind (Reads.someOp rfl rfl) (inner.bind (Reads.pure (some t) after))

/-- A list of types, each with a comma or the end of the list behind it. -/
theorem reads_types (nests : Nests r n) {ts : List Ty} (made : ∀ t ∈ ts, t.Made true)
    (faithful : tysFaithful ts = true) (small : weightAll (between comma (ts.map Ty.glyphs)) ≤ n) :
    Reads (commaList (nested (.ty true))) r (between comma (ts.map Ty.glyphs)) ts [] := by
  have each := tys_faithful_iff.mp faithful
  refine Reads.commaList ?_ ?_
  · intro t member
    simpa using (opensType_excludes (opens_type (made t member) (each t member) [])).solid
  · intro t member rest behind
    have weight := Nat.le_trans (Glyph.weight_le_between comma (List.mem_map_of_mem member)) small
    rcases behind with rfl | ⟨more, rfl⟩
    · exact nests.ty (made t member) (each t member) weight rfl fun _ => rfl
    · exact nests.ty (made t member) (each t member) weight rfl fun _ => rfl

/-- A path goes on over a plus sign if the result of its last segment does. -/
theorem segments_swallow_call (front : List Segment) (name : Ident) (inputs : List Ty) (output : Option Ty) :
    segmentsSwallow (front ++ [.call name inputs output]) = outputSwallows output := by
  induction front with
  | nil => rfl
  | cons s front ih => cases front <;> simp_all [segmentsSwallow]

/-- The segments of a trait's path, of which the last may have parenthesized arguments, and what is read then. -/
theorem reads_traitPath (nests : Nests r n) {inParens relaxed rooted : Bool} {binder : Option Binder}
    {segments : List Segment} (made : (Bound.trait inParens relaxed binder rooted segments).Made)
    (faithful : segmentsFaithful segments = true)
    (small : weightAll (between colons (segments.map Segment.glyphs)) ≤ n + 1) {after : List Glyph}
    (quiet : quiet (trees after) = true)
    (noPlus : segmentsSwallow segments = true → Ahead.op ['+'] (trees after) = false)
    {β : Type} {next : List Segment → Parser β} {b : β} (goesOn : Reads (next segments) r after b after) :
    Reads (do next (← callArgs (← Parsing.segments false))) r
      (between colons (segments.map Segment.glyphs) ++ after) b after := by
  have ends := quiet_ends quiet
  cases made with
  | trait some each =>
      refine (reads_segments nests some each faithful small ends.angle ends.segment).bind ?_
      unfold callArgs
      split
      · exact Reads.bind (Reads.ifNot ends.call (Reads.pure segments after)) goesOn
      · exact Reads.bind (Reads.pure segments after) goesOn
  | @call _ _ _ _ front name inputs output each names ins out unrelaxed =>
      have own : segmentsFaithful front = true ∧ tysFaithful inputs = true ∧ outputFaithful output = true := by
        simp only [segments_faithful_iff, List.forall_mem_append, List.forall_mem_singleton, Segment.faithful,
          Bool.and_eq_true] at faithful ⊢
        exact faithful
      have shape : between colons ((front ++ [Segment.call name inputs output]).map Segment.glyphs)
          = between colons ((front ++ [Segment.plain name]).map Segment.glyphs)
            ++ group .paren (between comma (inputs.map Ty.glyphs)) :: outputGlyphs output := by
        simp only [List.map_append, List.map_cons, List.map_nil, Segment.glyphs, ty_glyphs_eq]
        rw [← Glyph.between_append_last]
        rfl
      rw [shape, Glyph.weight_append, Glyph.weight_cons] at small
      simp only [Glyph.weight] at small
      have all : ∀ s ∈ front ++ [Segment.plain name], s.Made :=
        List.forall_mem_append.mpr ⟨each, List.forall_mem_singleton.mpr (.plain names)⟩
      have allFaithful : segmentsFaithful (front ++ [Segment.plain name]) = true :=
        segments_faithful_iff.mpr (List.forall_mem_append.mpr
          ⟨segments_faithful_iff.mp own.1, List.forall_mem_singleton.mpr rfl⟩)
      have path : Reads (Parsing.segments false) r (between colons ((front ++ [Segment.plain name]).map Segment.glyphs)
          ++ group .paren (between comma (inputs.map Ty.glyphs)) :: (outputGlyphs output ++ after))
          (front ++ [Segment.plain name])
          (group .paren (between comma (inputs.map Ty.glyphs)) :: (outputGlyphs output ++ after)) :=
        reads_segments nests (by simp) all allFaithful (by omega) rfl rfl
      rw [shape, List.append_assoc, List.cons_append]
      refine path.bind ?_
      unfold callArgs
      simp only [List.getLast?_append, List.getLast?_singleton, Option.some_or, List.dropLast_concat]
      refine Reads.bind (Reads.ifSeen rfl (Reads.ifNot rfl ?_)) goesOn
      refine (Reads.within (reads_types nests ins own.2.1 (by omega)) _).bind ?_
      refine (reads_output nests out own.2.2 (by omega) quiet (by rwa [segments_swallow_call] at noPlus)).bind ?_
      exact Reads.pure _ after

/-- What may stand in front of a trait's path does not begin the path. -/
structure TraitPath (ts : List TokenTree) : Prop where
  forWord : Ahead.word "for" ts = false
  constWord : Ahead.word "const" ts = false
  useWord : Ahead.word "use" ts = false
  mark : Ahead.op ['?'] ts = false
  bracket : Ahead.opens .bracket ts = false
  paren : Ahead.opens .paren ts = false
  lifetime : Ahead.lifetime ts = false

theorem opens_traitPath (rooted : Bool) {s : Segment} (names : s.name.Names) (more : List Segment)
    (after : List Glyph) :
    TraitPath (trees ((if rooted then colons else []) ++ (between colons ((s :: more).map Segment.glyphs) ++ after))) := by
  cases rooted with
  | true => exact ⟨rfl, rfl, rfl, rfl, rfl, rfl, rfl⟩
  | false =>
      rw [path_glyphs]
      have other : ∀ w ∈ ["for", "const", "use"], s.name.text ≠ w := by
        have known : ∀ w ∈ ["for", "const", "use"],
            w ∈ reserved ∧ w ∉ ["super", "self", "Self", "crate", "try"] := by decide
        exact fun w listed => names.not_word (known w listed).1 (known w listed).2
      refine ⟨?_, ?_, ?_, rfl, rfl, rfl, rfl⟩ <;> simpa [Ahead.word] using other _ (by decide)

/-- The glyphs of a trait without the parentheses around it. -/
def traitGlyphs (relaxed : Bool) (binder : Option Binder) (rooted : Bool) (segments : List Segment) : List Glyph :=
  (if relaxed then [mark '?'] else []) ++ (Glyph.binder binder
    ++ ((if rooted then colons else []) ++ between colons (segments.map Segment.glyphs)))

theorem trait_glyphs (inParens relaxed : Bool) (binder : Option Binder) (rooted : Bool) (segments : List Segment) :
    (Bound.trait inParens relaxed binder rooted segments).glyphs
      = if inParens then [group .paren (traitGlyphs relaxed binder rooted segments)]
        else traitGlyphs relaxed binder rooted segments := by
  simp [Bound.glyphs, traitGlyphs, segment_glyphs_eq]

theorem opens_trait {inParens relaxed rooted : Bool} {binder : Option Binder} {segments : List Segment}
    (made : (Bound.trait inParens relaxed binder rooted segments).Made) (after : List Glyph) :
    Ahead.lifetime (trees (traitGlyphs relaxed binder rooted segments ++ after)) = false
      ∧ Ahead.word "use" (trees (traitGlyphs relaxed binder rooted segments ++ after)) = false
      ∧ Ahead.opens .paren (trees (traitGlyphs relaxed binder rooted segments ++ after)) = false := by
  obtain ⟨s, more, rfl, names⟩ := made.first
  have opens := opens_traitPath rooted names more after
  match relaxed, binder with
  | true, _ => exact ⟨rfl, rfl, rfl⟩
  | false, some _ => exact ⟨rfl, rfl, rfl⟩
  | false, none =>
      simp only [traitGlyphs, Glyph.binder, List.append_assoc]
      exact ⟨opens.lifetime, opens.useWord, opens.paren⟩

theorem reads_traitBound (nests : Nests r n) {inParens relaxed rooted consts : Bool} {binder : Option Binder}
    {segments : List Segment} (made : (Bound.trait inParens relaxed binder rooted segments).Made)
    (plain : plainBinder binder = true) (faithful : segmentsFaithful segments = true)
    (small : weightAll (traitGlyphs relaxed binder rooted segments) ≤ n + 1) {after : List Glyph}
    (quiet : quiet (trees after) = true)
    (noPlus : segmentsSwallow segments = true → Ahead.op ['+'] (trees after) = false) :
    Reads (traitBound consts inParens) r (traitGlyphs relaxed binder rooted segments ++ after)
      (some (.trait inParens relaxed binder rooted segments)) after := by
  have weight : weightAll (between colons (segments.map Segment.glyphs)) ≤ n + 1 := by
    simp only [traitGlyphs, Glyph.weight_append] at small
    omega
  have unrelaxed : relaxed = true → binder = none := by
    cases made with
    | trait _ _ unrelaxed => exact unrelaxed
    | call _ _ _ _ unrelaxed => exact unrelaxed
  have path : Reads (do return some (Bound.trait inParens relaxed binder rooted (← callArgs (← Parsing.segments false))))
      r _ _ after := reads_traitPath nests made faithful weight quiet noPlus (Reads.pure _ after)
  obtain ⟨s, more, rfl, names⟩ := made.first
  have opens := opens_traitPath rooted names more after
  -- What stands behind the question mark and the binder.
  have tail : Reads (do
        let rooted ← takeOp? [':', ':']
        return some (Bound.trait inParens relaxed binder rooted (← callArgs (← Parsing.segments false)))) r
      ((if rooted then colons else []) ++ (between colons ((s :: more).map Segment.glyphs) ++ after))
      (some (.trait inParens relaxed binder rooted (s :: more))) after := by
    cases rooted with
    | true => exact Reads.bind (Reads.someOp rfl rfl) path
    | false => exact Reads.bind (Reads.noOp (by rw [path_glyphs]; rfl)) path
  have shape : traitGlyphs relaxed binder rooted (s :: more) ++ after = (if relaxed then [mark '?'] else [])
      ++ (Glyph.binder binder
        ++ ((if rooted then colons else []) ++ (between colons ((s :: more).map Segment.glyphs) ++ after))) := by
    simp [traitGlyphs]
  rw [shape]
  clear path shape
  generalize (if rooted then colons else []) ++ (between colons ((s :: more).map Segment.glyphs) ++ after) = before
    at opens tail ⊢
  cases relaxed with
  | true =>
      obtain rfl := unrelaxed rfl
      refine Reads.bind (reads_noBinder rfl) ?_
      refine Reads.get fun _ _ => Reads.bind (Reads.ahead rfl) (Reads.bind (Reads.ahead rfl) ?_)
      refine Reads.get fun _ _ => Reads.bind (Reads.someOp rfl rfl) ?_
      exact Reads.bind (reads_noBinder opens.forWord) tail
  | false =>
      refine Reads.bind (reads_binder plain fun _ => opens.forWord) ?_
      refine Reads.get fun _ _ => Reads.bind (Reads.ahead opens.bracket) (Reads.bind (Reads.ahead opens.constWord) ?_)
      refine Reads.get fun _ _ => Reads.bind (Reads.noOp opens.mark) ?_
      cases binder <;> exact tail

theorem reads_bound (nests : Nests r n) {captures consts : Bool} {b : Bound} (made : b.Made)
    (faithful : b.faithful = true) (small : weightAll b.glyphs ≤ n + 1) {after : List Glyph}
    (quiet : quiet (trees after) = true) (noPlus : b.swallows = true → Ahead.op ['+'] (trees after) = false) :
    Reads (bound captures consts) r (b.glyphs ++ after) b after := by
  cases b with
  | lifetime l => exact Reads.ifSeen rfl (Reads.bind (Reads.lifetime l after) (Reads.pure _ after))
  | verbatim lexemes => simp [Bound.faithful] at faithful
  | trait inParens relaxed binder rooted segments =>
      simp only [Bound.faithful, Bool.and_eq_true] at faithful
      rw [trait_glyphs] at small ⊢
      cases inParens with
      | true =>
          have weight : weightAll (traitGlyphs relaxed binder rooted segments) ≤ n + 1 := by
            simp only [if_true, Glyph.weight_cons, Glyph.weight] at small
            omega
          have inner : Reads (traitBound consts true) r (traitGlyphs relaxed binder rooted segments ++ []) _ [] :=
            reads_traitBound nests made faithful.1 faithful.2 weight rfl fun _ => rfl
          rw [List.append_nil] at inner
          refine Reads.ifNot rfl (Reads.ifNot rfl ?_)
          refine Reads.asWritten (a := some (.trait true relaxed binder rooted segments)) rfl ?_ fun _ => Reads.pure _ after
          exact Reads.ifSeen rfl (Reads.within inner after)
      | false =>
          have inner : Reads (traitBound consts false) r _ _ after :=
            reads_traitBound nests made faithful.1 faithful.2 small quiet fun on => noPlus (by simpa [Bound.swallows] using on)
          obtain ⟨noLifetime, noUse, noParen⟩ := opens_trait made after
          refine Reads.ifNot noLifetime (Reads.ifNot noUse ?_)
          refine Reads.asWritten (a := some (.trait false relaxed binder rooted segments)) rfl ?_ fun _ => Reads.pure _ after
          exact Reads.ifNot noParen inner

/-! Sums of bounds. -/

/-- Bounds that the rules at hand read back, whatever is added to each but the last. -/
structure Added (n : Nat) (bounds : List Bound) : Prop where
  made : ∀ b ∈ bounds, b.Made
  faithful : boundsFaithful bounds = true
  small : ∀ b ∈ bounds, weightAll b.glyphs ≤ n

namespace Added

variable {b : Bound} {more bounds : List Bound} {after : List Glyph}

theorem tail (sum : Added n (b :: more)) : Added n more where
  made other member := sum.made other (List.mem_cons_of_mem b member)
  faithful := by
    have each := sum.faithful
    simp only [boundsFaithful, Bool.and_eq_true] at each
    exact each.2
  small other member := sum.small other (List.mem_cons_of_mem b member)

theorem of_small (made : ∀ b ∈ bounds, b.Made) (faithful : boundsFaithful bounds = true)
    (small : weightAll (between plus (bounds.map Bound.glyphs)) ≤ n) : Added n bounds :=
  ⟨made, faithful, fun _ member => Nat.le_trans (Glyph.weight_le_between plus (List.mem_map_of_mem member)) small⟩

theorem head_faithful (sum : Added n (b :: more)) : b.faithful = true := by
  have each := sum.faithful
  simp only [boundsFaithful, Bool.and_eq_true] at each
  exact each.1.1

theorem opens (sum : Added n (b :: more)) (after : List Glyph) : opensBound (trees (b.glyphs ++ after)) = true :=
  opens_bound (sum.made b List.mem_cons_self) sum.head_faithful after

/-- A bound with another behind it. -/
theorem reads_head (nests : Nests r n) {captures consts : Bool} {next : Bound} (sum : Added n (b :: next :: more))
    (after : List Glyph) : Reads (nested (.bound captures consts)) r (b.glyphs ++ (plus ++ after)) b (plus ++ after) := by
  have stops : b.swallows = false := by
    have each := sum.faithful
    simp only [boundsFaithful, List.isEmpty_cons, Bool.false_or, Bool.and_eq_true, Bool.not_eq_true'] at each
    exact each.1.2
  exact nests.bound (sum.made b List.mem_cons_self) sum.head_faithful (sum.small b List.mem_cons_self) rfl
    fun on => absurd on (by simp [stops])

/-- A bound with none behind it. -/
theorem reads_last (nests : Nests r n) {captures consts : Bool} (sum : Added n [b]) (quiet : quiet (trees after) = true)
    (noPlus : b.swallows = true → Ahead.op ['+'] (trees after) = false) :
    Reads (nested (.bound captures consts)) r (b.glyphs ++ after) b after :=
  nests.bound (sum.made b List.mem_cons_self) sum.head_faithful (sum.small b List.mem_cons_self) quiet noPlus

theorem between_plus (next : Bound) : between plus ((b :: next :: more).map Bound.glyphs) ++ after
    = b.glyphs ++ (plus ++ (between plus ((next :: more).map Bound.glyphs) ++ after)) := by
  simp [between]

theorem of_suffix {suffix : List Bound} (sum : Added n bounds) (listed : suffix <:+ bounds) : Added n suffix := by
  induction bounds with
  | nil =>
      obtain rfl := List.suffix_nil.mp listed
      exact sum
  | cons b more ih =>
      rcases List.suffix_cons_iff.mp listed with rfl | later
      · exact sum
      · exact ih sum.tail later

theorem solid (sum : Added n bounds) : ∀ b ∈ bounds, trees b.glyphs ≠ [] := by
  intro b member none
  have opens := opens_bound (sum.made b member) (boundsFaithful_mem sum.faithful member) []
  rw [List.append_nil, none] at opens
  cases opens

theorem length_le (sum : Added n bounds) : bounds.length ≤ (trees (between plus (bounds.map Bound.glyphs))).length :=
  Reads.length_le_between plus sum.solid

theorem reads_boundRounds (nests : Nests r n) {captures consts : Bool} {another : List TokenTree → Bool}
    (sees : ∀ ts, opensBound ts = true → another ts = true) (sum : Added n bounds) (some : bounds ≠ [])
    (quiet : quiet (trees after) = true) (noPlus : Ahead.op ['+'] (trees after) = false) {rounds : Nat}
    (enough : bounds.length ≤ rounds) :
    Reads (boundRounds (nested (.bound captures consts)) another rounds) r
      (between plus (bounds.map Bound.glyphs) ++ after) bounds after := by
  induction bounds generalizing rounds with
  | nil => exact absurd rfl some
  | cons b bounds ih =>
      obtain ⟨rounds, rfl⟩ := Nat.exists_eq_succ_of_ne_zero (Nat.ne_of_gt (Nat.lt_of_lt_of_le (Nat.succ_pos _) enough))
      cases bounds with
      | nil =>
          refine Reads.bind (sum.reads_last nests quiet fun _ => noPlus) ?_
          exact Reads.bind (Reads.noOp noPlus) (Reads.pure [b] after)
      | cons next more =>
          have later := ih sum.tail (List.cons_ne_nil next more) (Nat.le_of_succ_le_succ enough)
          rw [between_plus]
          refine Reads.bind (sum.reads_head nests _) (Reads.bind (Reads.someOp rfl rfl) ?_)
          have opens := sees _ (sum.tail.opens (between plus ([] :: more.map Bound.glyphs) ++ after))
          rw [← List.append_assoc, ← Glyph.between_cons] at opens
          exact Reads.ifSeen opens (Reads.bind later (Reads.pure (b :: next :: more) after))

/-- Bounds up to a stop. -/
theorem reads_chainUntil (nests : Nests r n) {captures consts : Bool} {stop : List TokenTree → Bool}
    (goes : ∀ ts, opensBound ts = true → stop ts = false) (sum : Added n bounds) (ends : stop (trees after) = true)
    (quiet : quiet (trees after) = true) (noPlus : Ahead.op ['+'] (trees after) = false) :
    Reads (chainUntil ['+'] stop (nested (.bound captures consts))) r
      (between plus (bounds.map Bound.glyphs) ++ after) bounds after := by
  refine Reads.chainUntil sum.solid ends noPlus ?_ (fun _ => ⟨rfl, rfl⟩) ?_ ?_
  · exact fun b member rest => goes _ (opens_bound (sum.made b member) (boundsFaithful_mem sum.faithful member) rest)
  · exact fun b listed => (sum.of_suffix listed).reads_last nests quiet fun _ => noPlus
  · exact fun b next more listed rest => (sum.of_suffix listed).reads_head nests rest

/-- Bounds with a plus sign in front of each. -/
theorem reads_addedBounds (nests : Nests r n) {another : List TokenTree → Bool}
    (sees : ∀ ts, opensBound ts = true → another ts = true) (sum : Added n bounds)
    (quiet : quiet (trees after) = true) (noPlus : Ahead.op ['+'] (trees after) = false) :
    Reads (addedBounds another) r (between plus ([] :: bounds.map Bound.glyphs) ++ after) bounds after := by
  have rounds : ∀ count, bounds.length < count → Reads (addedRounds another count) r
      (between plus ([] :: bounds.map Bound.glyphs) ++ after) bounds after := by
    intro count enough
    induction bounds generalizing count with
    | nil =>
        obtain ⟨count, rfl⟩ := Nat.exists_eq_succ_of_ne_zero (Nat.ne_of_gt enough)
        exact Reads.bind (Reads.noOp noPlus) (Reads.pure [] after)
    | cons b bounds ih =>
        obtain ⟨count, rfl⟩ := Nat.exists_eq_succ_of_ne_zero (Nat.ne_of_gt (Nat.lt_of_le_of_lt (Nat.zero_le _) enough))
        have later := ih sum.tail count (Nat.lt_of_succ_lt_succ enough)
        have shape : between plus ([] :: (b :: bounds).map Bound.glyphs) ++ after
            = plus ++ (b.glyphs ++ (between plus ([] :: bounds.map Bound.glyphs) ++ after)) := by
          rw [List.map_cons, ← List.append_assoc b.glyphs, ← Glyph.between_cons]
          simp [between]
        have opens := sees _ (sum.opens (between plus ([] :: bounds.map Bound.glyphs) ++ after))
        have first : Reads (nested (.bound false false)) r (b.glyphs ++ (between plus ([] :: bounds.map Bound.glyphs) ++ after)) b
            (between plus ([] :: bounds.map Bound.glyphs) ++ after) := by
          cases bounds with
          | nil => exact sum.reads_last nests quiet fun _ => noPlus
          | cons next more => simpa [between] using sum.reads_head nests (between plus ((next :: more).map Bound.glyphs) ++ after)
        rw [shape]
        refine Reads.bind (Reads.someOp rfl rfl) (Reads.ifSeen opens ?_)
        exact Reads.bind first (Reads.bind later (Reads.pure (b :: bounds) after))
  refine Reads.get fun c ahead => rounds _ ?_
  have listed := sum.length_le
  rw [ahead, Glyph.trees_length_append]
  cases bounds with
  | nil => exact Nat.succ_pos _
  | cons b bounds =>
      have shape : between plus ([] :: (b :: bounds).map Bound.glyphs)
          = plus ++ between plus ((b :: bounds).map Bound.glyphs) := by simp [between]
      rw [shape, Glyph.trees_length_append]
      omega

end Added

/-- A sum, or one bound where no sum may stand. -/
theorem reads_boundSum (nests : Nests r n) {sums captures consts : Bool} {bounds : List Bound} (sum : Added n bounds)
    (some : bounds ≠ []) (one : sums = false → bounds.length = 1) {after : List Glyph}
    (quiet : quiet (trees after) = true)
    (noPlus : (sums || boundsSwallow bounds) = true → Ahead.op ['+'] (trees after) = false) :
    Reads (boundSum sums captures consts) r (between plus (bounds.map Bound.glyphs) ++ after) bounds after := by
  cases sums with
  | true =>
      refine Reads.get fun c ahead => sum.reads_boundRounds nests ?_ some quiet (noPlus rfl) ?_
      · exact fun ts opens => by simp [bound_of_opensBound opens]
      · have listed := sum.length_le
        rw [ahead, Glyph.trees_length_append]
        omega
  | false =>
      obtain ⟨b, rfl⟩ := List.length_eq_one_iff.mp (one rfl)
      exact Reads.bind (sum.reads_last nests quiet fun on => noPlus (by simpa [boundsSwallow] using on)) (Reads.pure [b] after)

/-! Arguments. -/

/-- What may follow an argument is quiet and continues no name. -/
structure ArgEnds (after : List TokenTree) : Prop where
  quiet : quiet after = true
  equals : Ahead.op ['='] after = false
  colon : Ahead.op [':'] after = false
  plus : Ahead.op ['+'] after = false
  stop : Ahead.argEnd after = true

theorem reads_associated (nests : Nests r n) {alone : Ty} {name : Ident} {args : Option (List GenericArg)} {t : Ty}
    (made : t.Made true) (faithful : t.faithful = true) (small : weightAll t.glyphs ≤ n) {after : List Glyph}
    (ends : ArgEnds (trees after)) :
    Reads (associatedArg alone name args) r (blank :: mark '=' :: blank :: (t.glyphs ++ after)) (.binding name args t)
      after := by
  have opens := opensType_excludes (opens_type made faithful after)
  refine Reads.bind (Reads.someOp rfl rfl) (Reads.ifNot ?_ ?_)
  · change (Ahead.literal (trees (t.glyphs ++ after)) || Ahead.opens .brace (trees (t.glyphs ++ after))) = false
    rw [opens.literal, opens.brace]
    rfl
  · exact Reads.bind (nests.ty made faithful small ends.quiet fun _ => ends.plus) (Reads.pure _ after)

theorem reads_alone {alone : Ty} {name : Ident} {args : Option (List GenericArg)} {after : List Glyph}
    (ends : ArgEnds (trees after)) : Reads (associatedArg alone name args) r after (.type alone) after :=
  Reads.bind (Reads.noOp ends.equals) (Reads.bind (Reads.noOp ends.colon) (Reads.pure _ after))

theorem reads_typeArg (nests : Nests r n) {a : GenericArg} (made : a.Made) (faithful : a.faithful = true)
    (type : ∀ l, a ≠ .lifetime l) (small : weightAll a.glyphs ≤ n) {after : List Glyph}
    (ends : ArgEnds (trees after)) : Reads typeArg r (a.glyphs ++ after) a after := by
  cases made with
  | lifetime => exact absurd rfl (type _)
  | const => simp [GenericArg.faithful] at faithful
  | @type t made =>
      refine Reads.bind (nests.ty made (by simpa [GenericArg.faithful] using faithful) small ends.quiet fun _ => ends.plus) ?_
      split
      · exact reads_alone ends
      · exact reads_alone ends
      · exact Reads.pure _ after
  | @binding name t heads made =>
      simp only [GenericArg.faithful, ownFaithful, Bool.true_and] at faithful
      simp only [GenericArg.glyphs, ownGlyphs, Glyph.weight_cons, Glyph.weight_append, Glyph.weight] at small
      refine Reads.bind (a := .path false [.plain name]) (nests.ty (.named heads) rfl ?_ rfl fun _ => rfl) ?_
      · simp [Ty.glyphs, segmentGlyphs, Segment.glyphs, between, Glyph.weight]
        omega
      · exact reads_associated nests made faithful (by omega) ends
  | @bindingArgs name args t takes each made =>
      simp only [GenericArg.faithful, ownFaithful, Bool.and_eq_true] at faithful
      simp only [GenericArg.glyphs, ownGlyphs, Glyph.weight_cons, Glyph.weight_append, Glyph.weight] at small
      have shape : (GenericArg.binding name (some args) t).glyphs ++ after = (Ty.path false [.angle name false args]).glyphs
          ++ blank :: mark '=' :: blank :: (t.glyphs ++ after) := by
        simp [GenericArg.glyphs, ownGlyphs, Ty.glyphs, segmentGlyphs, Segment.glyphs, between]
      rw [shape]
      refine Reads.bind (a := .path false [.angle name false args])
        (nests.ty (.namedArgs takes each) ?_ ?_ rfl fun _ => rfl) ?_
      · simpa [Ty.faithful, segmentsFaithful, Segment.faithful] using faithful.1
      · simp [Ty.glyphs, segmentGlyphs, Segment.glyphs, between, Glyph.weight]
        omega
      · exact reads_associated nests made faithful.2 (by omega) ends
  | @constraint name args bounds heads each =>
      simp only [GenericArg.faithful, Bool.and_eq_true, Option.isNone_iff_eq_none] at faithful
      obtain ⟨rfl, faithful⟩ := faithful
      simp only [GenericArg.glyphs, bound_glyphs_eq, Glyph.weight_cons, Glyph.weight] at small
      have sum : Added n bounds := .of_small each faithful (by omega)
      refine Reads.bind (a := .path false [.plain name]) (nests.ty (.named heads) rfl ?_ rfl fun _ => rfl) ?_
      · simp [Ty.glyphs, segmentGlyphs, Segment.glyphs, between, Glyph.weight]
        omega
      · refine Reads.bind (Reads.noOp rfl) (Reads.bind (Reads.someOp rfl rfl) ?_)
        rw [bound_glyphs_eq]
        refine Reads.bind (sum.reads_chainUntil nests (fun _ => arg_goes_of_opensBound) ends.stop ends.quiet ends.plus) ?_
        exact Reads.pure _ after

theorem reads_genericArg (nests : Nests r n) {a : GenericArg} (made : a.Made) (faithful : a.faithful = true)
    (small : weightAll a.glyphs ≤ n) {after : List Glyph} (ends : ArgEnds (trees after)) :
    Reads genericArg r (a.glyphs ++ after) a after := by
  rcases a.lifetime_or with ⟨l, rfl⟩ | type
  · exact Reads.ifSeen (by simp [GenericArg.glyphs, Ahead.lifetime, Ahead.next, ends.plus])
      (Reads.bind (Reads.lifetime l after) (Reads.pure _ after))
  · obtain ⟨leads, opens⟩ := opens_arg made faithful type after
    have none := opensType_excludes opens
    refine Reads.ifNot (plus_of_opensType opens) (Reads.ifNot (by rw [none.literal, none.brace]; rfl) ?_)
    refine Reads.captured (reads_typeArg nests made faithful type small ends) fun lexemes => ?_
    cases a with
    | const => simp [GenericArg.faithful] at faithful
    | _ => exact Reads.pure _ after

theorem reads_angleArgs (nests : Nests r n) {args : List GenericArg} (made : ∀ a ∈ args, a.Made)
    (faithful : argsFaithful args = true)
    (small : weightAll (between comma (args.map GenericArg.glyphs)) + 2 ≤ n + 1) (after : List Glyph) :
    Reads angleArgs r (mark '<' :: (between comma (args.map GenericArg.glyphs) ++ mark '>' :: after)) args after := by
  have each := args_faithful_iff.mp faithful
  have list : Reads (listUntil (Ahead.op ['>']) genericArg (takeOp [','])) r
      (between comma (args.map GenericArg.glyphs) ++ mark '>' :: after) args (mark '>' :: after) := by
    refine Reads.listUntil ?_ rfl ?_ (fun _ => rfl) ?_
    · intro a member
      simpa using (arg_excludes (made a member) (each a member) []).1
    · exact fun a member rest => (arg_excludes (made a member) (each a member) rest).2.1
    · intro a member rest behind
      have weight := Glyph.weight_le_between comma (List.mem_map_of_mem (f := GenericArg.glyphs) member)
      refine reads_genericArg nests (made a member) (each a member) (by omega) ?_
      rcases behind with rfl | ⟨more, rfl⟩
      · exact ⟨rfl, rfl, rfl, rfl, rfl⟩
      · exact ⟨rfl, rfl, rfl, rfl, rfl⟩
  exact Reads.bind (Reads.op rfl rfl) (Reads.bind list (Reads.bind (Reads.op rfl rfl) (Reads.pure args after)))

end Accessors.Parsing
