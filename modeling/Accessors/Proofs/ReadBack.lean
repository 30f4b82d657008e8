import Accessors.Proofs.TypesMade
import Accessors.Proofs.TypesRead

/-!
Types that were read are given back by reading what is written for them, as long as the writing keeps all that they
are made of. The module they stand in has no imports here, so every name stands for itself.
-/

namespace Accessors

open Parsing (typeText)

/-- Whatever was read: a type of the described form is given back. -/
theorem Ty.Made.read_back {t : Ty} (made : t.Made true) (faithful : t.faithful = true) :
    typeText (Signature.ty .empty t) = .ok t := by
  rw [Signature.ty_eq_glyphs faithful]
  refine Parsing.parse_of_reads (apart_ty t) fun n small => ?_
  have read := (Parsing.nests_rules n).ty made faithful small (rfl : Parsing.quiet (Glyph.trees []) = true) fun _ => rfl
  rwa [List.append_nil] at read

namespace TypeSample

abbrev a : Ident := ⟨"A", by decide +kernel⟩
abbrev b : Ident := ⟨"B", by decide +kernel⟩
abbrev c : Ident := ⟨"C", by decide +kernel⟩

/-- A type by its name. -/
abbrev named (name : Ident) : Ty := .path false [.plain name]

/-- A trait by its name. -/
abbrev trait (rooted : Bool) (name : Ident) : Bound := .trait false false none rooted [.plain name]

/-- A function trait with a sum as its result, and another bound. -/
def closed : Ty :=
  .object true [
    .trait false false none false [.call a [] (some (.object false [.lifetime ⟨⟨"a", by decide +kernel⟩⟩, trait false b]))],
    trait false c]

/-- The same bounds, the last of them in the sum. -/
def taken : Ty :=
  .object true [.trait false false none false
    [.call a [] (some (.object false [.lifetime ⟨⟨"a", by decide +kernel⟩⟩, trait false b, trait false c]))]]

/-- A mutable reference to a trait object of two bounds in parentheses. -/
def referred : Ty :=
  .reference (some ⟨⟨"a", by decide +kernel⟩⟩) true (.paren (.object true [
    .trait false false none false [.call b [.slice (named a), .tuple [named c]] (some .never)], trait true c]))

end TypeSample

open TypeSample

/-- The writing of a projection does not tell whether its trait's path has a leading separator. -/
theorem Signature.ty_projection (imports : ImportMap) (subject : Ty) (rooted : Bool) (traitPath rest : List Segment) :
    Signature.ty imports (.projection subject rooted traitPath rest)
      = Signature.ty imports (.projection subject false traitPath rest) := by
  cases traitPath <;> simp only [Signature.ty, Signature.parts]

/-- What is read back is the projection without the separator. -/
theorem projection_read_back_unrooted {text : String} {subject : Ty} {rooted : Bool} {traitPath rest : List Segment}
    (parsed : typeText text = .ok (.projection subject rooted traitPath rest))
    (faithful : (Ty.projection subject false traitPath rest).faithful = true) :
    typeText (Signature.ty .empty (.projection subject rooted traitPath rest))
      = .ok (.projection subject false traitPath rest) := by
  rw [Signature.ty_projection]
  cases Parsing.made_of_typeText parsed with
  | projection inner trait some made => exact Ty.Made.read_back (.projection inner trait some made) faithful

/-- A projection of parts that are kept is given back just if its trait's path has no leading separator. -/
theorem projection_read_back_iff {text : String} {subject : Ty} {rooted : Bool} {traitPath rest : List Segment}
    (parsed : typeText text = .ok (.projection subject rooted traitPath rest)) (kept : subject.faithful = true)
    (traitKept : segmentsFaithful traitPath = true) (restKept : segmentsFaithful rest = true) :
    typeText (Signature.ty .empty (.projection subject rooted traitPath rest))
        = .ok (.projection subject rooted traitPath rest) ↔ rooted = false := by
  have faithful : (Ty.projection subject false traitPath rest).faithful = true := by
    simp [Ty.faithful, kept, traitKept, restKept]
  rw [projection_read_back_unrooted parsed faithful]
  constructor
  · intro same
    cases same
    rfl
  · rintro rfl
    rfl

theorem projection_of_sample_read_back :
    typeText "< A as B > :: C" = .ok (.projection (named a) false [.plain b] [.plain c])
    ∧ typeText (Signature.ty .empty (.projection (named a) false [.plain b] [.plain c]))
      = .ok (.projection (named a) false [.plain b] [.plain c]) := by
  have parsed : typeText "< A as B > :: C" = .ok (.projection (named a) false [.plain b] [.plain c]) := rfl
  exact ⟨parsed, (projection_read_back_iff parsed rfl rfl rfl).mpr rfl⟩

theorem rooted_projection_not_read_back :
    typeText "<A as ::B>::C" = .ok (.projection (named a) true [.plain b] [.plain c])
    ∧ Signature.ty .empty (.projection (named a) true [.plain b] [.plain c]) = "<A as B>::C"
    ∧ typeText "<A as B>::C" = .ok (.projection (named a) false [.plain b] [.plain c])
    ∧ typeText (Signature.ty .empty (.projection (named a) true [.plain b] [.plain c]))
      ≠ .ok (.projection (named a) true [.plain b] [.plain c]) := by
  have text : Signature.ty .empty (.projection (named a) true [.plain b] [.plain c]) = "<A as B>::C" := by
    decide +kernel
  have parsed : typeText "<A as B>::C" = .ok (.projection (named a) false [.plain b] [.plain c]) := rfl
  refine ⟨rfl, text, parsed, ?_⟩
  rw [text, parsed]
  intro same
  cases same

end Accessors
