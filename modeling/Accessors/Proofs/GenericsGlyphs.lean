import Accessors.Proofs.TypeGlyphs
import Accessors.Signature.Generics

/-!
The header of an implementation for a generic struct: the parameters with their bounds, a name with the parameters
as its arguments, and the `where` clause. Its glyphs are the text that the three parts of the generics make around
the name.
-/

namespace Accessors

open Glyph (blank mark word lifetime group keyword comma plus between)

/-! What the header declares. -/

/-- A parameter as an argument. -/
def GenericParam.argument : GenericParam → GenericArg
  | .lifetime l _ => .lifetime l
  | .type name _ => .type (.path false [.plain name])
  | .const name _ => .type (.path false [.plain name])

/-- A name with the parameters as its arguments. -/
def Generics.target (g : Generics) (name : Ident) : Ty :=
  .path false [if g.params.isEmpty then .plain name else .angle name false (g.params.map GenericParam.argument)]

/-- An empty implementation with the generics, for a name with the parameters as its arguments. -/
def Generics.header (g : Generics) (name : Ident) : ImplDecl := ⟨g, none, g.target name, []⟩

/-- The text of an empty implementation for a name. -/
def Signature.GenericsText.header (text : GenericsText) (name : Ident) : String :=
  "impl" ++ text.implGenerics ++ " " ++ name.text ++ text.typeGenerics ++ text.whereClause ++ " \x7b\x7d"

/-! The glyphs. -/

namespace Glyph

theorem const_ident : "const".toList ≠ [] ∧ Lexer.identLength "const".toList = "const".toList.length := by decide

theorem impl_ident : "impl".toList ≠ [] ∧ Lexer.identLength "impl".toList = "impl".toList.length := by decide

abbrev constWord : Glyph := keyword "const" const_ident

abbrev implWord : Glyph := keyword "impl" impl_ident

abbrev whereWord : Glyph := keyword "where"

/-- The colon behind something, with bounds after it. -/
def colonBounds (bounds : List (List Glyph)) : List Glyph := mark ':' :: blank :: between plus bounds

/-- Bounds behind a parameter, which has no colon without any. -/
def ownBounds (bounds : List (List Glyph)) : List Glyph := if bounds.isEmpty then [] else colonBounds bounds

end Glyph

open Glyph (constWord implWord whereWord colonBounds ownBounds)

/-- The glyphs of lifetimes that bound something. -/
def lifetimeGlyphs (bounds : List Lifetime) : List (List Glyph) := bounds.map fun l => [lifetime l]

def GenericParam.glyphs : GenericParam → List Glyph
  | .lifetime l bounds => Glyph.lifetime l :: ownBounds (lifetimeGlyphs bounds)
  | .type name bounds => word name :: ownBounds (bounds.map Bound.glyphs)
  | .const name t => constWord :: blank :: word name :: mark ':' :: blank :: t.glyphs

def WherePredicate.glyphs : WherePredicate → List Glyph
  | .lifetime l bounds => Glyph.lifetime l :: colonBounds (lifetimeGlyphs bounds)
  | .type binder subject bounds => Glyph.binder binder ++ (subject.glyphs ++ colonBounds (bounds.map Bound.glyphs))

namespace Generics

def paramGlyphs (g : Generics) : List Glyph :=
  if g.params.isEmpty then [] else mark '<' :: (between comma (g.params.map GenericParam.glyphs) ++ [mark '>'])

def whereGlyphs (g : Generics) : List Glyph :=
  if g.predicates.isEmpty then []
  else blank :: whereWord :: blank :: between comma (g.predicates.map WherePredicate.glyphs)

def headerGlyphs (g : Generics) (name : Ident) : List Glyph :=
  implWord :: (g.paramGlyphs ++ blank :: ((g.target name).glyphs ++ (g.whereGlyphs ++ [blank, group .brace []])))

end Generics

/-! Generics whose writing keeps all that they are made of. -/

/-- A parameter with the name `_` is read as the beginning of a projection. -/
def GenericParam.faithful : GenericParam → Bool
  | .lifetime _ _ => true
  | .type name bounds => name.text != "_" && boundsFaithful bounds
  | .const _ t => t.faithful

def WherePredicate.faithful : WherePredicate → Bool
  | .lifetime _ _ => true
  | .type binder subject bounds => plainBinder binder && subject.faithful && boundsFaithful bounds

def Generics.faithful (g : Generics) : Bool :=
  g.params.all GenericParam.faithful && g.predicates.all WherePredicate.faithful

theorem Generics.target_faithful (g : Generics) (name : Ident) : (g.target name).faithful = true := by
  have each : argsFaithful (g.params.map GenericParam.argument) = true := by
    induction g.params with
    | nil => rfl
    | cons p rest ih => cases p <;> exact ih
  unfold target
  split <;> simp [Ty.faithful, segmentsFaithful, Segment.faithful, each]

/-! The glyphs are the text. -/

namespace Signature

open Glyph (charsAll)

theorem chars_lifetimes (bounds : List Lifetime) :
    ((bounds.map lifetimeBound).map (written .empty)).map String.toList = (lifetimeGlyphs bounds).map charsAll := by
  simp [lifetimeGlyphs, lifetimeBound, Glyph.chars]

theorem chars_bounded {subject : String} {glyphs : List Glyph} (same : subject.toList = charsAll glyphs)
    {elements : List (List Part)} {pieces : List (List Glyph)}
    (each : (elements.map (written .empty)).map String.toList = pieces.map charsAll) :
    (written .empty (bounded subject elements)).toList = charsAll (glyphs ++ ownBounds pieces) := by
  have listed := chars_separated chars_plus each
  have lengths := congrArg List.length each
  simp only [List.length_map] at lengths
  cases elements with
  | nil =>
      obtain rfl := List.eq_nil_of_length_eq_zero lengths.symm
      simp [bounded, ownBounds, same]
  | cons first rest =>
      obtain ⟨piece, more, rfl⟩ := List.exists_cons_of_length_eq_add_one lengths.symm
      simp [bounded, ownBounds, colonBounds, same, listed, Glyph.chars, -written_separated]

theorem chars_param {p : GenericParam} (faithful : p.faithful = true) :
    (written .empty (param p)).toList = charsAll p.glyphs := by
  cases p with
  | lifetime l bounds =>
      have same : l.text.toList = charsAll [lifetime l] := by simp [Glyph.chars]
      exact chars_bounded same (chars_lifetimes bounds)
  | type name bounds =>
      simp only [GenericParam.faithful, Bool.and_eq_true] at faithful
      have same : name.text.toList = charsAll [word name] := by simp [Glyph.chars]
      rw [param, bound_list_eq]
      exact chars_bounded same (chars_bounds bounds faithful.2)
  | const name t =>
      simp [param, GenericParam.glyphs, chars_ty t (by simpa [GenericParam.faithful] using faithful), Glyph.chars]

theorem chars_predicate {p : WherePredicate} (faithful : p.faithful = true) :
    (written .empty (predicate p)).toList = charsAll p.glyphs := by
  cases p with
  | lifetime l bounds =>
      have listed := chars_separated chars_plus (chars_lifetimes bounds)
      simp [predicate, WherePredicate.glyphs, colonBounds, listed, Glyph.chars, -written_separated]
  | type binder subject bounds =>
      simp only [WherePredicate.faithful, Bool.and_eq_true] at faithful
      have listed := chars_separated chars_plus (chars_bounds bounds faithful.2)
      simp [predicate, WherePredicate.glyphs, colonBounds, bound_list_eq, listed, chars_binder faithful.1.1,
        chars_ty subject faithful.1.2, Glyph.chars, -written_separated]

theorem chars_params {g : Generics} (faithful : g.faithful = true) :
    (generics .empty g).implGenerics.toList = charsAll g.paramGlyphs := by
  simp only [Generics.faithful, Bool.and_eq_true, List.all_eq_true] at faithful
  have each : ((g.params.map param).map (written .empty)).map String.toList
      = (g.params.map GenericParam.glyphs).map charsAll := by
    simp only [List.map_map]
    exact List.map_congr_left fun p member => chars_param (faithful.1 p member)
  have listed := chars_separated chars_comma each
  simp only [generics, paramParts, angled, Generics.paramGlyphs, List.isEmpty_map]
  split
  · rfl
  · simp [listed, Glyph.chars, -written_separated]

theorem chars_where {g : Generics} (faithful : g.faithful = true) :
    (generics .empty g).whereClause.toList = charsAll g.whereGlyphs := by
  simp only [Generics.faithful, Bool.and_eq_true, List.all_eq_true] at faithful
  have each : ((g.predicates.map predicate).map (written .empty)).map String.toList
      = (g.predicates.map WherePredicate.glyphs).map charsAll := by
    simp only [List.map_map]
    exact List.map_congr_left fun p member => chars_predicate (faithful.2 p member)
  have listed := chars_separated chars_comma each
  simp only [generics, whereParts, Generics.whereGlyphs]
  split
  · rfl
  · simp [listed, Glyph.chars, -written_separated]

/-- A name with the parameters as its arguments is written in the name and the parameters. -/
theorem ty_target (g : Generics) (name : Ident) :
    ty .empty (g.target name) = name.text ++ (generics .empty g).typeGenerics := by
  have each : (g.params.map GenericParam.argument).map (fun a => written .empty (arg a)) = g.params.map paramName := by
    rw [List.map_map]
    refine List.map_congr_left fun p _ => ?_
    cases p <;> simp [GenericParam.argument, arg, parts, pathParts, segmentList, separated, argsParts, Segment.name, paramName]
  have whole : ∀ s : Segment, ty .empty (.path false [s]) = written .empty (segment s) := by
    intro s
    change written .empty (pathParts [s]) = _
    rw [written_path_empty]
    simp [Text.join]
  rw [Generics.target, whole]
  by_cases none : g.params.isEmpty = true
  · simp [generics, angled, none, segment]
  · simp [generics, angled, none, segment, arg_list_eq, ← each, Function.comp_def]

theorem header_eq_glyphs {g : Generics} (faithful : g.faithful = true) (name : Ident) :
    (generics .empty g).header name = String.ofList (charsAll (g.headerGlyphs name)) := by
  have target := congrArg String.toList (ty_eq_glyphs (g.target_faithful name))
  rw [ty_target, String.toList_ofList] at target
  have chars : ((generics .empty g).header name).toList = charsAll (g.headerGlyphs name) := by
    simp only [GenericsText.header, String.toList_append, chars_params faithful, chars_where faithful, Generics.headerGlyphs,
      Glyph.chars_all_cons, Glyph.chars_all_append, ← target]
    simp [Glyph.chars, Delimiter.opening, Delimiter.closing]
  rw [← chars, String.ofList_toList]

end Signature

/-! The glyphs stay apart. -/

section

open Glyph (apart apartBefore opensWord apart_append apart_cons apart_mark apart_comma apart_plus apart_binder)

theorem apart_lifetimes (bounds : List Lifetime) : ∀ piece ∈ lifetimeGlyphs bounds, apart piece = true := by
  intro piece member
  obtain ⟨l, -, rfl⟩ := List.mem_map.mp member
  rfl

theorem apart_colonBounds {bounds : List (List Glyph)} (each : ∀ piece ∈ bounds, apart piece = true) :
    apart (colonBounds bounds) = true := by
  simpa [colonBounds, apartBefore, Lexer.marks] using apart_plus each

theorem apart_ownBounds {bounds : List (List Glyph)} (each : ∀ piece ∈ bounds, apart piece = true) :
    apart (ownBounds bounds) = true ∧ opensWord (ownBounds bounds) = false := by
  unfold ownBounds
  split
  · exact ⟨rfl, rfl⟩
  · exact ⟨apart_colonBounds each, rfl⟩

theorem apart_param (p : GenericParam) : apart p.glyphs = true := by
  cases p with
  | lifetime l bounds => simp [GenericParam.glyphs, apartBefore, apart_ownBounds (apart_lifetimes bounds)]
  | type name bounds => simp [GenericParam.glyphs, apartBefore, apart_ownBounds (apart_bounds bounds)]
  | const name t => simp [GenericParam.glyphs, apartBefore, opensWord, Lexer.marks, apart_ty t]

theorem apart_predicate (p : WherePredicate) : apart p.glyphs = true := by
  cases p with
  | lifetime l bounds => exact apart_append [lifetime l] _ rfl (apart_colonBounds (apart_lifetimes bounds)) rfl
  | type binder subject bounds =>
      exact apart_binder binder (apart_append _ _ (apart_ty subject) (apart_colonBounds (apart_bounds bounds)) rfl)

theorem Generics.apart_head (g : Generics) (name : Ident) {b : List Glyph} (tidy : apart b = true)
    (opens : opensWord b = false) :
    apart (implWord :: (g.paramGlyphs ++ blank :: ((g.target name).glyphs ++ (g.whereGlyphs ++ b)))) = true := by
  have params : ∀ piece ∈ g.params.map GenericParam.glyphs, apart piece = true :=
    List.forall_mem_map.mpr fun p _ => apart_param p
  have predicates : ∀ piece ∈ g.predicates.map WherePredicate.glyphs, apart piece = true :=
    List.forall_mem_map.mpr fun p _ => apart_predicate p
  have clause : apart (g.whereGlyphs ++ b) = true := by
    unfold whereGlyphs
    split
    · exact tidy
    · have listed := apart_append _ _ (apart_comma predicates) tidy opens
      simpa [apartBefore, opensWord] using listed
  have behind : apart ((g.target name).glyphs ++ (g.whereGlyphs ++ b)) = true := by
    refine apart_append _ _ (apart_ty _) clause ?_
    unfold whereGlyphs
    split
    · exact opens
    · rfl
  unfold paramGlyphs
  split
  · simpa [apartBefore, opensWord] using behind
  · have spaced : apart (blank :: ((g.target name).glyphs ++ (g.whereGlyphs ++ b))) = true := behind
    have listed := apart_mark (by decide : '>' ∈ Lexer.marks) (apart_comma params) spaced
    rw [List.cons_append, List.append_assoc, apart_cons, Bool.and_eq_true]
    exact ⟨rfl, by simpa [apartBefore, Lexer.marks] using listed⟩

theorem Generics.apart_header (g : Generics) (name : Ident) : apart (g.headerGlyphs name) = true :=
  g.apart_head name rfl rfl

end

end Accessors
