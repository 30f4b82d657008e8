import Accessors.Parsing.Items
import Accessors.Proofs.GenericsGlyphs
import Accessors.Proofs.GenericsMade
import Accessors.Proofs.TypesRead

/-!
The grammar reads the header of an implementation back from the glyphs that it is written in.
-/

namespace Accessors.Parsing

open Glyph (trees blank mark word lifetime group colons comma plus between weightAll constWord implWord whereWord colonBounds
  ownBounds)

variable {r : Rules} {n : Nat}

/-! Bounds behind a colon. -/

theorem reads_lifetimes {stop : List TokenTree → Bool} (goes : ∀ l rest, stop (trees (lifetime l :: rest)) = false)
    (bounds : List Lifetime) {after : List Glyph} (ends : stop (trees after) = true)
    (noPlus : Ahead.op ['+'] (trees after) = false) :
    Reads (chainUntil ['+'] stop takeLifetime) r (between plus (lifetimeGlyphs bounds) ++ after) bounds after :=
  Reads.chainUntil (by simp) ends noPlus (fun l _ rest => goes l rest) (fun _ => ⟨rfl, rfl⟩)
    (fun l _ => Reads.lifetime l after) fun l _ _ _ rest => Reads.lifetime l (plus ++ rest)

/-- A bound does not end a `where` clause. -/
theorem where_goes_of_opensBound {ts : List TokenTree} (opens : opensBound ts = true) : Ahead.whereEnd ts = false := by
  have absent : ∀ c ∈ [',', ';', '='], Ahead.op [c] ts = false := by
    have plain : ∀ c ∈ [',', ';', '='], c ≠ '?' ∧ c ≠ ':' := by simp
    exact fun c listed => no_op_of_opensBound opens (plain c listed).1 (plain c listed).2
  have first : Ahead.atEnd ts = false ∧ Ahead.opens .brace ts = false
      ∧ (Ahead.op [':'] ts && !Ahead.colons ts) = false := by
    match ts, opens with
    | .leaf (.ident _) :: _, _ => exact ⟨rfl, rfl, rfl⟩
    | .leaf (.lifetime _) :: _, _ => exact ⟨rfl, rfl, rfl⟩
    | .leaf (.punct c joint) :: rest, opens =>
        refine ⟨rfl, rfl, ?_⟩
        rcases (Bool.or_eq_true _ _).mp opens with mark | double
        · obtain rfl : c = '?' := by simpa using mark
          rfl
        · rw [double, Bool.not_true, Bool.and_false]
    | .group .paren _ :: _, _ => exact ⟨rfl, rfl, rfl⟩
  rw [Ahead.whereEnd, first.1, first.2.1, first.2.2, absent ',' (by decide), absent ';' (by decide), absent '=' (by decide)]
  rfl

/-- Neither does a type. -/
theorem where_goes_of_noType {ts : List TokenTree} (none : NoType ts) : Ahead.whereEnd ts = false := by
  have filled : Ahead.atEnd ts = false := by
    cases ts with
    | nil => exact absurd rfl none.solid
    | cons t rest => rfl
  have colon : (Ahead.op [':'] ts && !Ahead.colons ts) = false := by
    cases single : Ahead.op [':'] ts with
    | false => rfl
    | true => rw [none.colons single]; rfl
  rw [Ahead.whereEnd, filled, none.brace, colon, none.op ',' (by decide) [], none.op ';' (by decide) [],
    none.op '=' (by decide) []]
  rfl

/-! Parameters. -/

theorem reads_genericParam (nests : Nests r n) {p : GenericParam} (made : p.Made) (faithful : p.faithful = true)
    (small : weightAll p.glyphs ≤ n) {after : List Glyph} (ends : ArgEnds (trees after)) :
    Reads genericParam r (p.glyphs ++ after) p after := by
  cases made with
  | @lifetime l bounds =>
      refine Reads.bind (reads_no_attributes rfl) (Reads.ifNot rfl (Reads.ifSeen rfl ?_))
      refine Reads.bind (Reads.lifetime l _) ?_
      cases bounds with
      | nil => exact Reads.bind (Reads.noOp ends.colon) (Reads.bind (Reads.pure [] after) (Reads.pure _ after))
      | cons first more =>
          refine Reads.bind (Reads.someOp rfl rfl) ?_
          exact Reads.bind (reads_lifetimes (fun _ _ => rfl) (first :: more) ends.stop ends.plus) (Reads.pure _ after)
  | @type name bounds names each =>
      simp only [GenericParam.faithful, Bool.and_eq_true, bne_iff_ne, ne_eq] at faithful
      have free : name.Free := names.resolve_right faithful.1
      have tail : Reads (do
            if ← takeOp? ['='] then
              let _ ← nested (.ty true)
            return GenericParam.type name bounds) r after (.type name bounds) after :=
        Reads.bind (Reads.noOp ends.equals) (Reads.pure _ after)
      refine Reads.bind (reads_no_attributes rfl) (Reads.ifSeen ?_ (Reads.bind (Reads.ident free _) ?_))
      · simpa [GenericParam.glyphs, Ahead.ident, Ident.Free] using free
      · cases bounds with
        | nil => exact Reads.bind (Reads.noOp ends.colon) (Reads.bind (Reads.pure [] after) tail)
        | cons first more =>
            have sum : Added n (first :: more) := Added.of_small each faithful.2 (by
              simp only [GenericParam.glyphs, ownBounds, colonBounds, List.map_cons, List.isEmpty_cons] at small ⊢
              simp only [Bool.false_eq_true, if_false, Glyph.weight_cons, Glyph.weight] at small
              omega)
            refine Reads.bind (Reads.someOp rfl rfl) (Reads.bind ?_ tail)
            refine sum.reads_chainUntil nests (fun ts opens => ?_) (by rw [ends.stop]; rfl) ends.quiet ends.plus
            rw [arg_goes_of_opensBound opens, no_op_of_opensBound opens (by decide) (by decide)]
            rfl
  | @const name t free own =>
      have weight : weightAll t.glyphs ≤ n := by
        simp only [GenericParam.glyphs, Glyph.weight_cons] at small
        omega
      have inner := nests.ty own (by simpa [GenericParam.faithful] using faithful) weight ends.quiet fun _ => ends.plus
      refine Reads.bind (reads_no_attributes rfl) (Reads.ifNot rfl (Reads.ifNot rfl ?_))
      refine Reads.bind (Reads.someWord rfl _) (Reads.bind (Reads.ident free _) (Reads.bind (Reads.op rfl rfl) ?_))
      exact Reads.bind inner (Reads.bind (Reads.noOp ends.equals) (Reads.pure _ after))

/-- How a parameter begins. -/
theorem opens_param {p : GenericParam} (made : p.Made) (faithful : p.faithful = true) (after : List Glyph) :
    trees (p.glyphs ++ after) ≠ [] ∧ Ahead.op ['#'] (trees (p.glyphs ++ after)) = false
      ∧ Ahead.op ['>'] (trees (p.glyphs ++ after)) = false ∧ Ahead.word "_" (trees (p.glyphs ++ after)) = false := by
  cases made with
  | lifetime => exact ⟨by simp [GenericParam.glyphs], rfl, rfl, rfl⟩
  | type names each =>
      simp only [GenericParam.faithful, Bool.and_eq_true, bne_iff_ne, ne_eq] at faithful
      exact ⟨by simp [GenericParam.glyphs], rfl, rfl, by simpa [GenericParam.glyphs, Ahead.word] using faithful.1⟩
  | const free own => exact ⟨by simp [GenericParam.glyphs], rfl, rfl, rfl⟩

/-- Parameters in angle brackets do not open a projection. -/
theorem opens_params {p : GenericParam} (made : p.Made) (faithful : p.faithful = true) (more : List GenericParam)
    (after : List Glyph) :
    Ahead.implGenerics (trees (mark '<' :: (between comma ((p :: more).map GenericParam.glyphs) ++ mark '>' :: after)))
      = true := by
  cases made with
  | @lifetime l bounds => cases bounds <;> cases more <;> rfl
  | @type name bounds names each =>
      simp only [GenericParam.faithful, Bool.and_eq_true, bne_iff_ne, ne_eq] at faithful
      have free : name.Free := names.resolve_right faithful.1
      have front : name.text ∉ reserved := free
      cases bounds <;> cases more <;>
        simp [Ahead.implGenerics, Ahead.next, Ahead.ident, Ahead.op, Ahead.colons, GenericParam.glyphs, ownBounds, colonBounds,
          between, Glyph.joins, front]
  | const free own => cases more <;> rfl

/-- Parameters in angle brackets, or none where something else stands, and what is read then. -/
theorem reads_genericParams (nests : Nests r n) {g : Generics} (made : g.Made) (faithful : g.faithful = true)
    (small : weightAll g.paramGlyphs ≤ n) {after : List Glyph} (noAngle : Ahead.op ['<'] (trees after) = false)
    {β : Type} {next : List GenericParam → Parser β} {b : β} {behind : List Glyph}
    (goesOn : Reads (next g.params) r after b behind) :
    Reads (do if ← ahead Ahead.implGenerics then next (← genericParams) else next (← pure [])) r (g.paramGlyphs ++ after) b
      behind := by
  simp only [Generics.faithful, Bool.and_eq_true, List.all_eq_true] at faithful
  cases g with
  | mk params predicates =>
  have own : ∀ q ∈ params, q.Made := made.params
  have kept : ∀ q ∈ params, q.faithful = true := faithful.1
  cases params with
  | nil =>
      exact Reads.ifNot (by simp [Generics.paramGlyphs, Ahead.implGenerics, noAngle])
        (Reads.bind (Reads.pure [] after) goesOn)
  | cons p more =>
      have small' : weightAll (between comma ((p :: more).map GenericParam.glyphs)) ≤ n := by
        simp only [Generics.paramGlyphs, List.isEmpty_cons, Bool.false_eq_true, if_false, Glyph.weight_cons,
          Glyph.weight_append] at small
        omega
      have list : Reads (listUntil (Ahead.op ['>']) (do
            let _ ← outerAttributes
            if ← ahead (Ahead.word "_") then return .type (← takeAnyIdent) [] else genericParam) (takeOp [','])) r
          (between comma ((p :: more).map GenericParam.glyphs) ++ mark '>' :: after) (p :: more) (mark '>' :: after) := by
        refine Reads.listUntil ?_ rfl ?_ (fun _ => rfl) ?_
        · intro q member
          simpa using (opens_param (own q member) (kept q member) []).1
        · exact fun q member rest => (opens_param (own q member) (kept q member) rest).2.2.1
        · intro q member rest behind
          have weight := Nat.le_trans (Glyph.weight_le_between comma (List.mem_map_of_mem member)) small'
          obtain ⟨-, plain, -, named⟩ := opens_param (own q member) (kept q member) rest
          refine Reads.bind (reads_no_attributes plain) (Reads.ifNot named ?_)
          refine reads_genericParam nests (own q member) (kept q member) weight ?_
          rcases behind with rfl | ⟨more, rfl⟩
          · exact ⟨rfl, rfl, rfl, rfl, rfl⟩
          · exact ⟨rfl, rfl, rfl, rfl, rfl⟩
      have shape : Generics.paramGlyphs ⟨p :: more, predicates⟩ ++ after
          = mark '<' :: (between comma ((p :: more).map GenericParam.glyphs) ++ mark '>' :: after) := by
        simp [Generics.paramGlyphs]
      rw [shape]
      refine Reads.ifSeen (opens_params (own p List.mem_cons_self) (kept p List.mem_cons_self) more after) ?_
      refine Reads.bind ?_ goesOn
      exact Reads.bind (Reads.someOp rfl rfl) (Reads.bind list (Reads.bind (Reads.op rfl rfl) (Reads.pure _ after)))

/-! Predicates. -/

theorem for_of_path {rooted : Bool} {segments : List Segment} (heads : HeadsPath rooted segments) (after : List Glyph) :
    Ahead.word "for" (trees ((if rooted then colons else []) ++ (between colons (segments.map Segment.glyphs) ++ after)))
      = false := by
  cases rooted with
  | true => rfl
  | false =>
      obtain ⟨s, more, rfl⟩ := List.exists_cons_of_ne_nil heads.1
      rw [path_glyphs]
      have other := (heads.2 rfl s rfl).not_word (w := "for") (by decide) (by decide)
      simpa [Ahead.word] using other

/-- A type that begins with no binder does not begin with the word `for`. -/
theorem for_of_unled {t : Ty} {sums : Bool} (made : t.Made sums) (faithful : t.faithful = true) (unled : t.leadsBinder = false)
    (after : List Glyph) : Ahead.word "for" (trees (t.glyphs ++ after)) = false := by
  cases made with
  | path heads each => simpa [Ty.glyphs, segment_glyphs_eq] using for_of_path heads after
  | @projection _ subject traitRooted traitPath rest inner each some more => cases traitPath <;> rfl
  | array => simp [Ty.faithful] at faithful
  | @tuple _ elements each apart => rcases elements with _ | ⟨first, _ | ⟨second, rest⟩⟩ <;> rfl
  | boundTrait heads each => cases unled
  | loneTrait heads each => simp [Ty.faithful, loneTrait] at faithful
  | @pathSum binder rooted segments next more heads each unrooted later =>
      cases binder with
      | none =>
          simpa [Ty.glyphs, bound_glyphs_eq, Bound.glyphs, Glyph.binder, segment_glyphs_eq, between]
            using for_of_path heads (plus ++ between plus (next.glyphs :: more.map Bound.glyphs) ++ after)
      | some params => cases unled
  | @relaxedSum _ rooted segments more first later => cases more <;> rfl
  | @lifetimeSum _ l more each names => cases more <;> rfl
  | @function _ binder isUnsafe abi inputs variadic output each receiver result =>
      cases binder with
      | some params => cases unled
      | none => cases isUnsafe with
        | true => rfl
        | false => rcases abi with _ | _ | name <;> rfl
  | verbatim => simp [Ty.faithful] at faithful
  | _ => rfl

theorem colon_of_opensType {leads : Bool} {ts : List TokenTree} (opens : opensType leads ts = true) :
    (Ahead.lifetime ts && Ahead.op [':'] (Ahead.next ts)) = false := by
  match leads, ts, opens with
  | false, .leaf (.ident _) :: _, _ => rfl
  | true, .leaf (.lifetime _) :: .leaf (.punct c _) :: _, opens =>
      obtain rfl : c = '+' := by simpa [opensType] using opens
      rfl
  | false, .leaf (.punct _ _) :: _, _ => rfl
  | false, .group _ _ :: _, _ => rfl

/-- What may follow a predicate: another one, or the body. -/
structure PredicateEnds (after : List TokenTree) : Prop where
  stop : Ahead.whereEnd after = true
  quiet : quiet after = true
  plus : Ahead.op ['+'] after = false

theorem reads_wherePredicate (nests : Nests r n) {p : WherePredicate} (made : p.Made) (faithful : p.faithful = true)
    (small : weightAll p.glyphs ≤ n) {after : List Glyph} (ends : PredicateEnds (trees after)) :
    Reads wherePredicate r (p.glyphs ++ after) p after := by
  cases made with
  | @lifetime l bounds =>
      refine Reads.ifSeen rfl (Reads.bind (Reads.lifetime l _) (Reads.bind (Reads.op rfl rfl) ?_))
      exact Reads.bind (reads_lifetimes (fun _ _ => rfl) bounds ends.stop ends.plus) (Reads.pure _ after)
  | @type binder subject bounds own unled each =>
      simp only [WherePredicate.faithful, Bool.and_eq_true] at faithful
      simp only [WherePredicate.glyphs, colonBounds, Glyph.weight_append, Glyph.weight_cons] at small
      have sum : Added n bounds := Added.of_small each faithful.2 (by omega)
      have shape : (WherePredicate.type binder subject bounds).glyphs ++ after = Glyph.binder binder
          ++ (subject.glyphs ++ mark ':' :: blank :: (between plus (bounds.map Bound.glyphs) ++ after)) := by
        simp [WherePredicate.glyphs, colonBounds]
      have opens := opens_type own faithful.1.2 (mark ':' :: blank :: (between plus (bounds.map Bound.glyphs) ++ after))
      rw [shape]
      refine Reads.ifNot ?_ (Reads.bind (reads_binder faithful.1.1 fun none => ?_) ?_)
      · cases binder with
        | none => exact colon_of_opensType opens
        | some params => rfl
      · exact for_of_unled own faithful.1.2 (unled none) _
      · refine Reads.bind (nests.ty own faithful.1.2 (by omega) rfl fun _ => rfl) (Reads.bind (Reads.op rfl rfl) ?_)
        refine Reads.bind ?_ (Reads.pure _ after)
        exact sum.reads_chainUntil nests (fun _ => where_goes_of_opensBound) ends.stop ends.quiet ends.plus

/-- A predicate does not end the clause. -/
theorem predicate_goes {p : WherePredicate} (made : p.Made) (faithful : p.faithful = true) (after : List Glyph) :
    Ahead.whereEnd (trees (p.glyphs ++ after)) = false := by
  cases made with
  | lifetime => rfl
  | @type binder subject bounds own unled each =>
      simp only [WherePredicate.faithful, Bool.and_eq_true] at faithful
      cases binder with
      | some params => rfl
      | none =>
          have opens := opens_type own faithful.1.2 (colonBounds (bounds.map Bound.glyphs) ++ after)
          rw [← List.append_assoc] at opens
          exact where_goes_of_noType (opensType_excludes opens)

/-- A clause in front of the body, or none. -/
theorem reads_whereClause (nests : Nests r n) {g : Generics} (made : g.Made) (faithful : g.faithful = true)
    (small : weightAll g.whereGlyphs ≤ n) (body : List Glyph) :
    Reads whereClause r (g.whereGlyphs ++ [blank, group .brace body]) g.predicates [blank, group .brace body] := by
  simp only [Generics.faithful, Bool.and_eq_true, List.all_eq_true] at faithful
  cases g with
  | mk params predicates =>
  have own : ∀ q ∈ predicates, q.Made := made.predicates
  have kept : ∀ q ∈ predicates, q.faithful = true := faithful.2
  cases predicates with
  | nil => exact Reads.bind (Reads.noWord rfl) (Reads.pure [] _)
  | cons p more =>
      have small' : weightAll (between comma ((p :: more).map WherePredicate.glyphs)) ≤ n := by
        simp only [Generics.whereGlyphs, List.isEmpty_cons, Bool.false_eq_true, if_false, Glyph.weight_cons] at small
        omega
      have each : ∀ q ∈ p :: more, ∀ rest, PredicateEnds (trees rest) → Reads wherePredicate r (q.glyphs ++ rest) q rest :=
        fun q member rest ends => reads_wherePredicate nests (own q member) (kept q member)
          (Nat.le_trans (Glyph.weight_le_between comma (List.mem_map_of_mem member)) small') ends
      have list : Reads (chainUntil [','] Ahead.whereEnd wherePredicate) r
          (between comma ((p :: more).map WherePredicate.glyphs) ++ [blank, group .brace body]) (p :: more)
          [blank, group .brace body] := by
        refine Reads.chainUntil ?_ rfl rfl ?_ (fun _ => ⟨rfl, rfl⟩) ?_ ?_
        · intro q member none
          have goes := predicate_goes (own q member) (kept q member) []
          rw [List.append_nil, none] at goes
          cases goes
        · exact fun q member rest => predicate_goes (own q member) (kept q member) rest
        · exact fun q listed => each q (listed.subset List.mem_cons_self) _ ⟨rfl, rfl, rfl⟩
        · exact fun q other rest listed behind => each q (listed.subset List.mem_cons_self) _ ⟨rfl, rfl, rfl⟩
      have shape : Generics.whereGlyphs ⟨params, p :: more⟩ ++ [blank, group .brace body] = blank :: whereWord :: blank
          :: (between comma ((p :: more).map WherePredicate.glyphs) ++ [blank, group .brace body]) := by
        simp [Generics.whereGlyphs]
      rw [shape]
      exact Reads.bind (Reads.someWord rfl _) list

/-! The header. -/

theorem target_glyphs (g : Generics) (name : Ident) : ∃ more, (g.target name).glyphs = word name :: more := by
  unfold Generics.target
  split <;> exact ⟨_, rfl⟩

theorem target_made {g : Generics} (made : g.Made) (faithful : g.faithful = true) {name : Ident} (free : name.Free) :
    (g.target name).Made true := by
  simp only [Generics.faithful, Bool.and_eq_true, List.all_eq_true] at faithful
  have args : ∀ a ∈ g.params.map GenericParam.argument, GenericArg.Made a := by
    refine List.forall_mem_map.mpr fun p member => ?_
    have kept := faithful.1 p member
    cases made.params p member with
    | lifetime => exact .lifetime
    | type names each =>
        simp only [GenericParam.faithful, Bool.and_eq_true, bne_iff_ne, ne_eq] at kept
        exact .type (Ty.Made.named (Or.inl (names.resolve_right kept.1)))
    | const own inner => exact .type (Ty.Made.named (Or.inl own))
  unfold Generics.target
  split
  · exact Ty.Made.named (Or.inl free)
  · exact Ty.Made.namedArgs (Or.inl free) args

/-- A block without members. -/
theorem reads_members {α : Type} (member : Parser α) (after : List Glyph) :
    Reads (members member) r (group .brace [] :: after) [] after := by
  have attributes : Reads innerAttributes r [] none [] := by
    intro stray read
    refine ⟨read, ?_⟩
    simp [innerAttributes, iterate, iterateRounds, run_bind, run_get, run_ahead, run_pure, Parser.andThen, Ahead.op]
  have list : Reads (plainList member) r [] [] [] := Reads.get fun c _ => Reads.ifSeen rfl (Reads.pure [] [])
  exact Reads.within (Reads.bind attributes list) after

theorem reads_header (nests : Nests r n) {g : Generics} (made : g.Made) (faithful : g.faithful = true) {name : Ident}
    (free : name.Free) (small : weightAll (g.headerGlyphs name) ≤ n) :
    Reads implItem r (g.headerGlyphs name) (g.header name) [] := by
  simp only [Generics.headerGlyphs, Glyph.weight_cons, Glyph.weight_append] at small
  obtain ⟨more, named⟩ := target_glyphs g name
  have notConst : name.text ≠ "const" := fun same => free (same ▸ by decide)
  have clause : ∀ body, Ahead.word "for" (trees (g.whereGlyphs ++ [blank, group .brace body])) = false
      ∧ quiet (trees (g.whereGlyphs ++ [blank, group .brace body])) = true
      ∧ Ahead.op ['+'] (trees (g.whereGlyphs ++ [blank, group .brace body])) = false := by
    intro body
    unfold Generics.whereGlyphs
    split <;> exact ⟨rfl, rfl, rfl⟩
  obtain ⟨noFor, quiet, noPlus⟩ := clause []
  let behind := blank :: ((g.target name).glyphs ++ (g.whereGlyphs ++ [blank, group .brace []]))
  have front : trees behind = .leaf (.ident name) :: trees (more ++ (g.whereGlyphs ++ [blank, group .brace []])) := by
    simp only [behind, named]
    rfl
  have noAngle : Ahead.op ['<'] (trees behind) = false := by
    rw [front]
    rfl
  have noConst : (Ahead.word "const" (trees behind)
      || (Ahead.op ['?'] (trees behind) && Ahead.word "const" (Ahead.next (trees behind)))) = false := by
    rw [front]
    simp [Ahead.word, Ahead.op, notConst]
  have noMark : (Ahead.op ['!'] (trees behind) && !Ahead.opens .brace (Ahead.next (trees behind))) = false := by
    rw [front]
    rfl
  refine Reads.bind (Reads.noWord rfl) (Reads.bind (Reads.noWord rfl) (Reads.bind (Reads.word rfl _) ?_))
  refine reads_genericParams nests made faithful (by omega) noAngle ?_
  refine Reads.bind (Reads.ahead noConst) (Reads.get fun c _ => Reads.bind (Reads.ahead noMark) ?_)
  refine Reads.bind (Reads.pure false _) ?_
  refine Reads.bind (nests.ty (target_made made faithful free) (g.target_faithful name) (by omega) quiet fun _ => noPlus) ?_
  refine Reads.bind (Reads.noWord noFor) (Reads.bind (Reads.pure none _) ?_)
  refine Reads.bind (reads_whereClause nests made faithful (by omega) []) ?_
  exact Reads.bind (reads_members implMember []) (Reads.pure (g.header name) [])

end Accessors.Parsing
