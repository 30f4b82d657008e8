import Accessors.Proofs.Reading
import Accessors.Proofs.TypeGlyphs
import Accessors.Proofs.TypeGrammar

/-!
How the writing of a type begins, and what may stand behind it. The grammar decides by the first tokens what it
reads, so each form of a type, a bound or an argument is told from the others by its first glyphs.
-/

namespace Accessors

open Glyph (trees blank mark word lifetime literal group keyword colons comma plus between)

namespace Ident

theorem Heads.not_word {name : Ident} (heads : name.Heads) {w : String} (listed : w ∈ Parsing.reserved)
    (other : w ∉ ["super", "self", "Self", "crate"]) : name.text ≠ w := by
  rintro rfl
  rcases heads with free | word
  · exact free listed
  · exact other word

theorem Names.not_word {name : Ident} (names : name.Names) {w : String} (listed : w ∈ Parsing.reserved)
    (other : w ∉ ["super", "self", "Self", "crate", "try"]) : name.text ≠ w := by
  rcases names with heads | same
  · exact heads.not_word listed fun member => other (List.mem_append_left ["try"] member)
  · rintro rfl
    exact other (by simp [same])

theorem TakesArgs.heads {name : Ident} (takes : name.TakesArgs) : name.Heads := by
  rcases takes with free | same
  · exact Or.inl free
  · exact Or.inr (by simp [same])

end Ident

theorem Ty.Made.namedArgs {name : Ident} (takes : name.TakesArgs) {args : List GenericArg} (each : ∀ a ∈ args, a.Made)
    {turbofish sums : Bool} : Ty.Made sums (.path false [.angle name turbofish args]) :=
  .path ⟨List.cons_ne_nil _ _, fun _ first same => by cases same; exact takes.heads⟩
    (List.forall_mem_singleton.mpr (.angle takes each))

theorem Segment.Made.names {s : Segment} (made : s.Made) : s.name.Names := by
  cases made with
  | plain names => exact names
  | angle takes _ => exact Or.inl takes.heads

/-! What may stand behind a type. -/

namespace Parsing

/-- Tokens that do not go on a path, a macro or a result. -/
def quiet (after : List TokenTree) : Bool :=
  !Ahead.op ['<'] after && !Ahead.colons after && !Ahead.op ['!'] after && !Ahead.op ['-', '>'] after
    && !Ahead.opens .paren after

/-- How a type begins; the flag is whether with a lifetime, which has another bound behind it. -/
def opensType : (leads : Bool) → List TokenTree → Bool
  | false, .leaf (.ident name) :: _ => !(["mut", "true", "false"].contains name.text)
  | true, .leaf (.lifetime _) :: .leaf (.punct c _) :: _ => c == '+'
  | false, .leaf (.punct c joint) :: rest =>
      ['<', '&', '*', '!'].contains c || Ahead.colons (.leaf (.punct c joint) :: rest)
  | false, .group d _ :: _ => d != .brace
  | _, _ => false

/-- How a bound begins. -/
def opensBound : List TokenTree → Bool
  | .leaf (.ident name) :: _ => !(["use", "const"].contains name.text)
  | .leaf (.lifetime _) :: _ => true
  | .leaf (.punct c joint) :: rest => c == '?' || Ahead.colons (.leaf (.punct c joint) :: rest)
  | .group .paren _ :: _ => true
  | _ => false

end Parsing

open Parsing (opensType opensBound)

/-! How the writing begins. -/

/-- A segment without its name. -/
def Segment.argGlyphs : Segment → List Glyph
  | .plain _ => []
  | .angle _ turbofish args =>
      (if turbofish then colons else []) ++ mark '<' :: (between comma (args.map GenericArg.glyphs) ++ [mark '>'])
  | .call _ inputs output => group .paren (between comma (inputs.map Ty.glyphs)) :: outputGlyphs output

theorem Segment.glyphs_eq (s : Segment) : s.glyphs = word s.name :: s.argGlyphs := by
  cases s <;> simp [Segment.glyphs, Segment.argGlyphs, Segment.name, arg_glyphs_eq, ty_glyphs_eq]

/-- A path begins with the name of its first segment. -/
theorem path_glyphs (s : Segment) (more : List Segment) :
    between colons ((s :: more).map Segment.glyphs)
      = word s.name :: between colons (s.argGlyphs :: more.map Segment.glyphs) := by
  rw [List.map_cons, Segment.glyphs_eq, Glyph.between_cons_cons]

theorem Ident.Names.opens {name : Ident} (names : name.Names) (tail : List Glyph) :
    opensType false (trees (word name :: tail)) = true := by
  have mut' := names.not_word (w := "mut") (by decide) (by decide)
  have true' := names.not_word (w := "true") (by decide) (by decide)
  have false' := names.not_word (w := "false") (by decide) (by decide)
  simp [opensType, mut', true', false']

theorem opens_path {rooted : Bool} {segments : List Segment} (heads : HeadsPath rooted segments) (after : List Glyph) :
    opensType false (trees ((if rooted then colons else []) ++ (between colons (segments.map Segment.glyphs) ++ after)))
      = true := by
  cases rooted with
  | true => rfl
  | false =>
      cases segments with
      | nil => exact absurd rfl heads.1
      | cons s more =>
          rw [path_glyphs]
          exact Ident.Names.opens (Or.inl (heads.2 rfl s rfl)) _

theorem opens_type {sums : Bool} {t : Ty} (made : t.Made sums) (faithful : t.faithful = true) (after : List Glyph) :
    opensType t.leadsLifetime (trees (t.glyphs ++ after)) = true := by
  cases made with
  | path heads each => simpa [Ty.glyphs, segment_glyphs_eq, Ty.leadsLifetime] using opens_path heads after
  | @projection _ subject traitRooted traitPath rest inner each some more => cases traitPath <;> rfl
  | reference inner apart => rfl
  | pointer inner => rfl
  | slice inner => rfl
  | array => simp [Ty.faithful] at faithful
  | @tuple _ elements each apart =>
      rcases elements with _ | ⟨first, _ | ⟨second, rest⟩⟩ <;> rfl
  | paren inner => rfl
  | never => rfl
  | infer => rfl
  | dyn each names one => rfl
  | opaqueImpl each names one => rfl
  | boundTrait heads each => rfl
  | loneTrait heads each => simp [Ty.faithful, loneTrait] at faithful
  | @pathSum binder rooted segments next more heads each unrooted later =>
      cases binder with
      | none =>
          simpa [Ty.glyphs, bound_glyphs_eq, Bound.glyphs, Glyph.binder, segment_glyphs_eq, between, Ty.leadsLifetime]
            using opens_path heads (plus ++ between plus (next.glyphs :: more.map Bound.glyphs) ++ after)
      | some params => rfl
  | parenSum heads each unrooted later => rfl
  | @relaxedSum _ rooted segments more first later => cases more <;> rfl
  | @lifetimeSum _ l more each names =>
      cases more with
      | nil => cases names
      | cons next more => rfl
  | @function _ binder isUnsafe abi inputs variadic output each receiver result =>
      cases binder with
      | some params => rfl
      | none => cases isUnsafe with
        | true => rfl
        | false => rcases abi with _ | _ | name <;> rfl
  | verbatim => simp [Ty.faithful] at faithful

namespace Parsing

variable {ts : List TokenTree}

/-- What a type does not begin with. -/
structure NoType (ts : List TokenTree) : Prop where
  solid : ts ≠ []
  op : ∀ c ∈ ['>', '=', '?', '#', '.', ',', ';', '+'], ∀ more, Ahead.op (c :: more) ts = false
  colons : Ahead.op [':'] ts = true → Ahead.colons ts = true
  mut' : Ahead.word "mut" ts = false
  literal : Ahead.literal ts = false
  brace : Ahead.opens .brace ts = false

theorem colon_of_colons {d : Char} {joint : Bool} {rest : List TokenTree}
    (double : Ahead.colons (.leaf (.punct d joint) :: rest) = true) : d = ':' := by
  simp only [Ahead.colons, Ahead.op, Bool.and_eq_true, beq_iff_eq] at double
  exact double.1.1.symm

theorem opensType_excludes {leads : Bool} (opens : opensType leads ts = true) : NoType ts := by
  match leads, ts, opens with
  | false, .leaf (.ident name) :: rest, opens =>
      refine ⟨by simp, ?_, fun no => (by cases no), ?_, ?_, rfl⟩
      · intro c listed more
        cases more <;> rfl
      · simp_all [opensType, Ahead.word]
      · simp_all [opensType, Ahead.literal]
  | true, .leaf (.lifetime _) :: .leaf (.punct c _) :: _, opens =>
      refine ⟨by simp, ?_, fun no => (by cases no), rfl, rfl, rfl⟩
      intro c listed more
      cases more <;> rfl
  | false, .leaf (.punct d joint) :: rest, opens =>
      have known : [':', '<', '&', '*', '!'].contains d = true := by
        rcases (Bool.or_eq_true _ _).mp opens with plain | double
        · simp only [List.contains_cons, Bool.or_eq_true] at plain ⊢
          exact Or.inr plain
        · rw [colon_of_colons double]
          rfl
      have absent : ∀ c ∈ ['>', '=', '?', '#', '.', ',', ';', '+', '-'], [':', '<', '&', '*', '!'].contains c = false :=
        Lexer.each_of_all (by decide)
      have other : ∀ c ∈ ['>', '=', '?', '#', '.', ',', ';', '+', '-'], c ≠ d := by
        rintro c listed rfl
        rw [absent c listed] at known
        cases known
      refine ⟨by simp, ?_, fun colon => ?_, rfl, ?_, rfl⟩
      · intro c listed more
        have apart : c ≠ d := other c (List.mem_append_left ['-'] listed)
        cases more <;> simp [Ahead.op, apart]
      · obtain rfl : ':' = d := by simpa [Ahead.op] using colon
        exact opens
      · have minus : d ≠ '-' := (other '-' (by decide)).symm
        unfold Ahead.literal
        split <;> simp_all
  | false, .group d _ :: _, opens =>
      refine ⟨by simp, ?_, fun no => (by cases no), rfl, rfl, ?_⟩
      · intro c listed more
        cases more <;> rfl
      · cases d <;> first | rfl | cases opens

theorem lifetime_of_opensType {leads : Bool} (opens : opensType leads ts = true) : Ahead.lifetime ts = leads := by
  match leads, ts, opens with
  | false, .leaf (.ident _) :: _, _ => rfl
  | true, .leaf (.lifetime _) :: .leaf (.punct _ _) :: _, _ => rfl
  | false, .leaf (.punct _ _) :: _, _ => rfl
  | false, .group _ _ :: _, _ => rfl

/-- A lifetime in front of a type has another bound behind it. -/
theorem plus_of_opensType {leads : Bool} (opens : opensType leads ts = true) :
    (Ahead.lifetime ts && !Ahead.op ['+'] (Ahead.next ts)) = false := by
  match leads, ts, opens with
  | false, .leaf (.ident _) :: _, _ => rfl
  | true, .leaf (.lifetime _) :: .leaf (.punct c _) :: _, opens =>
      obtain rfl : c = '+' := by simpa [opensType] using opens
      rfl
  | false, .leaf (.punct _ _) :: _, _ => rfl
  | false, .group _ _ :: _, _ => rfl

end Parsing

/-- The path of a trait has a first segment. -/
theorem Bound.Made.first {inParens relaxed rooted : Bool} {binder : Option Binder} {segments : List Segment}
    (made : (Bound.trait inParens relaxed binder rooted segments).Made) :
    ∃ s more, segments = s :: more ∧ s.name.Names := by
  cases made with
  | trait some each =>
      cases segments with
      | nil => exact absurd rfl some
      | cons s more => exact ⟨s, more, rfl, (each s List.mem_cons_self).names⟩
  | @call _ _ _ _ front name inputs output each names =>
      cases front with
      | nil => exact ⟨_, [], rfl, names⟩
      | cons s front => exact ⟨s, _, rfl, (each s List.mem_cons_self).names⟩

theorem opens_bound {b : Bound} (made : b.Made) (faithful : b.faithful = true) (after : List Glyph) :
    opensBound (trees (b.glyphs ++ after)) = true := by
  cases b with
  | lifetime l => rfl
  | verbatim lexemes => simp [Bound.faithful] at faithful
  | trait inParens relaxed binder rooted segments =>
      obtain ⟨s, more, rfl, names⟩ := made.first
      match inParens, relaxed, binder, rooted with
      | true, _, _, _ => rfl
      | false, true, _, _ => rfl
      | false, false, some _, _ => rfl
      | false, false, none, true => rfl
      | false, false, none, false =>
          have use := names.not_word (w := "use") (by decide) (by decide)
          have const := names.not_word (w := "const") (by decide) (by decide)
          simp only [Bound.glyphs, Glyph.binder, segment_glyphs_eq, path_glyphs]
          simp [opensBound, use, const]

namespace Parsing

theorem bound_of_opensBound {ts : List TokenTree} (opens : opensBound ts = true) : Ahead.bound ts = true := by
  match ts, opens with
  | .leaf (.ident _) :: _, _ => rfl
  | .leaf (.lifetime _) :: _, _ => rfl
  | .leaf (.punct c joint) :: rest, opens =>
      rcases (Bool.or_eq_true _ _).mp opens with mark | colons
      · obtain rfl : c = '?' := by simpa using mark
        simp [Ahead.bound, Ahead.op]
      · simp [Ahead.bound, colons]
  | .group .paren _ :: _, _ => rfl

/-- A bound begins with no other punctuation than a question mark or a separator. -/
theorem no_op_of_opensBound {ts : List TokenTree} (opens : opensBound ts = true) {c : Char} (mark : c ≠ '?')
    (colon : c ≠ ':') : Ahead.op [c] ts = false := by
  match ts, opens with
  | .leaf (.ident _) :: _, _ => rfl
  | .leaf (.lifetime _) :: _, _ => rfl
  | .leaf (.punct d joint) :: rest, opens =>
      rcases (Bool.or_eq_true _ _).mp opens with same | double
      · obtain rfl : d = '?' := by simpa using same
        simpa [Ahead.op] using mark
      · obtain rfl := colon_of_colons double
        simpa [Ahead.op] using colon
  | .group .paren _ :: _, _ => rfl

theorem arg_goes_of_opensBound {ts : List TokenTree} (opens : opensBound ts = true) : Ahead.argEnd ts = false := by
  rw [Ahead.argEnd, no_op_of_opensBound opens (by decide) (by decide), no_op_of_opensBound opens (by decide) (by decide)]
  rfl

end Parsing

theorem GenericArg.lifetime_or (a : GenericArg) : (∃ l, a = .lifetime l) ∨ ∀ l, a ≠ .lifetime l := by
  cases a <;> simp

/-- An argument that is no lifetime begins like a type. -/
theorem opens_arg {a : GenericArg} (made : a.Made) (faithful : a.faithful = true) (type : ∀ l, a ≠ .lifetime l)
    (after : List Glyph) : ∃ leads, opensType leads (trees (a.glyphs ++ after)) = true := by
  cases made with
  | lifetime => exact absurd rfl (type _)
  | @type t made => exact ⟨_, opens_type made (by simpa [GenericArg.faithful] using faithful) after⟩
  | const => simp [GenericArg.faithful] at faithful
  | binding heads made => exact ⟨false, Ident.Names.opens (Or.inl heads) _⟩
  | bindingArgs takes each made => exact ⟨false, Ident.Names.opens (Or.inl takes.heads) _⟩
  | constraint heads each => exact ⟨false, Ident.Names.opens (Or.inl heads) _⟩

/-- What an argument does not begin with. -/
theorem arg_excludes {a : GenericArg} (made : a.Made) (faithful : a.faithful = true) (after : List Glyph) :
    trees (a.glyphs ++ after) ≠ [] ∧ Parsing.Ahead.op ['>'] (trees (a.glyphs ++ after)) = false
      ∧ Parsing.Ahead.op ['='] (trees (a.glyphs ++ after)) = false := by
  rcases a.lifetime_or with ⟨l, rfl⟩ | type
  · exact ⟨by simp [GenericArg.glyphs], rfl, rfl⟩
  · obtain ⟨leads, opens⟩ := opens_arg made faithful type after
    have none := Parsing.opensType_excludes opens
    exact ⟨none.solid, none.op '>' (by decide) [], none.op '=' (by decide) []⟩

theorem args_faithful_iff {args : List GenericArg} :
    argsFaithful args = true ↔ ∀ a ∈ args, a.faithful = true := by
  induction args with
  | nil => simp [argsFaithful]
  | cons a rest ih => simp [argsFaithful, ih]

theorem tys_faithful_iff {ts : List Ty} : tysFaithful ts = true ↔ ∀ t ∈ ts, t.faithful = true := by
  induction ts with
  | nil => simp [tysFaithful]
  | cons t rest ih => simp [tysFaithful, ih]

theorem segments_faithful_iff {segments : List Segment} :
    segmentsFaithful segments = true ↔ ∀ s ∈ segments, s.faithful = true := by
  induction segments with
  | nil => simp [segmentsFaithful]
  | cons s rest ih => simp [segmentsFaithful, ih]

theorem boundsFaithful_mem {bounds : List Bound} (faithful : boundsFaithful bounds = true) {b : Bound}
    (member : b ∈ bounds) : b.faithful = true := by
  induction bounds with
  | nil => cases member
  | cons other rest ih =>
      simp only [boundsFaithful, Bool.and_eq_true] at faithful
      rcases List.mem_cons.mp member with rfl | later
      · exact faithful.1.1
      · exact ih faithful.2 later

theorem inputs_faithful_iff {inputs : List Input} :
    inputsFaithful inputs = true ↔ ∀ i ∈ inputs, i.faithful = true := by
  induction inputs with
  | nil => simp [inputsFaithful]
  | cons i rest ih => simp [inputsFaithful, ih]

/-- Arguments in angle brackets do not make the bracket an operator. -/
theorem args_no_operator {args : List GenericArg} (made : ∀ a ∈ args, a.Made) (faithful : argsFaithful args = true)
    (after : List Glyph) :
    Parsing.Ahead.op ['='] (trees (between comma (args.map GenericArg.glyphs) ++ mark '>' :: after)) = false := by
  cases args with
  | nil => rfl
  | cons a more =>
      have first := arg_excludes (made a List.mem_cons_self) (args_faithful_iff.mp faithful a List.mem_cons_self)
      cases more with
      | nil => exact (first _).2.2
      | cons b more =>
          have shape : between comma ((a :: b :: more).map GenericArg.glyphs) ++ mark '>' :: after
              = a.glyphs ++ (comma ++ (between comma ((b :: more).map GenericArg.glyphs) ++ mark '>' :: after)) := by
            simp [between]
          rw [shape]
          exact (first _).2.2

end Accessors
