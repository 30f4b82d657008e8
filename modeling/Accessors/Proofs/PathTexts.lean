import Accessors.Proofs.TypesMade
import Accessors.Proofs.TypesRead

/-!
Paths that are written from names. With separators between them the names are read as the segments of a path, each
without arguments, if every one of them may be a segment. If one may not, which is a reserved word that stands for no
module, the text is refused.
-/

namespace Accessors

open Glyph (trees word colons between charsAll apart)

namespace Ident

/-- The path of some names. -/
def path (names : List Ident) : String := Text.join "::" (names.map Ident.text)

def pathGlyphs (names : List Ident) : List Glyph := between colons (names.map fun name => [word name])

theorem path_eq_glyphs (names : List Ident) : path names = String.ofList (charsAll (pathGlyphs names)) := by
  have each : (names.map Ident.text).map String.toList = (names.map fun name => [word name]).map charsAll := by
    simp [Glyph.chars]
  rw [← String.toList_inj, String.toList_ofList]
  exact Signature.chars_between Signature.chars_colons each

theorem apart_path (names : List Ident) : apart (pathGlyphs names) = true :=
  Glyph.apart_colons (List.forall_mem_map.mpr fun _ _ => rfl)

end Ident

namespace Parsing

/-- A path as a whole text. -/
def wholePath : Parser (Bool × List Segment) := do
  let rooted ← takeOp? [':', ':']
  return (rooted, ← segments false)

theorem path_text_eq (text : String) : pathText text = parse wholePath text := rfl

variable {r : Rules} {c : Cursor} {names : List Ident}

/-- Names that may be segments are read. -/
theorem path_text_of_names (some : names ≠ []) (each : ∀ name ∈ names, name.Names) :
    pathText (Ident.path names) = .ok (false, names.map .plain) := by
  have glyphs : (names.map Segment.plain).map Segment.glyphs = names.map fun name => [word name] := by
    simp [Segment.glyphs]
  have made : ∀ s ∈ names.map Segment.plain, s.Made := List.forall_mem_map.mpr fun name member => .plain (each name member)
  have faithful : segmentsFaithful (names.map Segment.plain) = true :=
    segments_faithful_iff.mpr (List.forall_mem_map.mpr fun _ _ => rfl)
  have filled : names.map Segment.plain ≠ [] := by simpa using some
  have noColons : Ahead.op [':', ':'] (trees (Ident.pathGlyphs names)) = false := by
    obtain ⟨name, more, rfl⟩ := List.exists_cons_of_ne_nil some
    rw [Ident.pathGlyphs, List.map_cons, Glyph.between_cons_cons]
    rfl
  rw [Ident.path_eq_glyphs, path_text_eq]
  refine parse_of_reads (Ident.apart_path names) fun n small => ?_
  have weight : Glyph.weightAll (between colons ((names.map Segment.plain).map Segment.glyphs)) ≤ n + 1 := by
    rw [glyphs]
    exact Nat.le_succ_of_le small
  have path : Reads (segments false) (rules n) (between colons ((names.map Segment.plain).map Segment.glyphs) ++ [])
      (names.map .plain) [] :=
    reads_segments (nests_rules n) filled made faithful weight rfl rfl
  rw [glyphs, List.append_nil] at path
  exact (Reads.noOp noColons).bind (path.bind (Reads.pure _ []))

/-! Names that are read may be segments. -/

theorem yields_front {name : Ident} {after : List TokenTree} (here : c.rest = .leaf (.ident name) :: after) :
    Yields takeAnyIdent r c fun read c' => read = name ∧ c'.rest = after := by
  intro read c' ran
  simp only [takeAnyIdent, run_bind, run_get, Parser.andThen, here, run_consume, run_pure] at ran
  cases ran
  exact ⟨rfl, by simp [Cursor.skip, here]⟩

theorem yields_free {name : Ident} {after : List TokenTree} (here : c.rest = .leaf (.ident name) :: after) :
    Yields takeIdent r c fun read c' => read = name ∧ name.Free ∧ c'.rest = after := by
  refine Yields.ifAhead (fun free => (yields_front here).mono fun read c' same => ?_) fun _ => Yields.fail
  rw [here] at free
  exact ⟨same.1, show name.text ∉ reserved by simpa [Ahead.ident] using free, same.2⟩

/-- A name that no arguments follow is read as a segment if it may be one. -/
theorem yields_name {name : Ident} {after : List TokenTree} (here : c.rest = .leaf (.ident name) :: after)
    (ends : Ahead.angleArgs false after = false) :
    Yields (segment false) r c fun s c' => s = .plain name ∧ name.Names ∧ c'.rest = after := by
  have alone : ∀ read c', read = name → name.Heads → c'.rest = after →
      Yields (do
        if ← ahead (Ahead.angleArgs false) then
          let turbofish ← takeOp? [':', ':']
          return Segment.angle read turbofish (← nested .angleArgs)
        else return .plain read) r c' fun s c' => s = .plain name ∧ name.Names ∧ c'.rest = after := by
    rintro read c' rfl heads behind
    refine Yields.ifAhead (fun opens => ?_) fun _ => Yields.pure ⟨rfl, Or.inl heads, behind⟩
    rw [behind, ends] at opens
    cases opens
  refine Yields.ifAhead (fun bare => ?_) fun _ => Yields.ifAhead (fun own => ?_) fun _ => ?_
  · refine Yields.bind (yields_front here) fun read c' same => Yields.pure ⟨by rw [same.1], ?_, same.2⟩
    rw [here] at bare
    simp only [Ahead.bareSegment, Ahead.word, Bool.or_eq_true, beq_iff_eq] at bare
    rcases bare with ((listed | listed) | listed) | listed
    · exact Or.inl (Or.inr (by simp [listed]))
    · exact Or.inl (Or.inr (by simp [listed]))
    · exact Or.inl (Or.inr (by simp [listed]))
    · exact Or.inr listed
  · rw [here] at own
    refine Yields.bind (yields_front here) fun read c' same => alone read c' same.1 (Or.inr ?_) same.2
    have word : name.text = "Self" := by simpa [Ahead.word] using own
    simp [word]
  · refine Yields.bind (yields_free here) fun read c' found => ?_
    exact alone read c' found.1 (Or.inl found.2.1) found.2.2

theorem yields_names (some : names ≠ []) (here : c.rest = trees (Ident.pathGlyphs names)) (count : Nat) :
    Yields (segmentRounds false count) r c fun path _ => path = names.map .plain ∧ ∀ name ∈ names, name.Names := by
  induction count generalizing names c with
  | zero => exact Yields.fail
  | succ count ih =>
      match names, some with
      | [name], _ =>
          refine Yields.bind (yields_name here rfl) ?_
          rintro s c' ⟨rfl, may, behind⟩
          refine Yields.ifAhead (fun more => ?_) fun _ => Yields.pure ⟨rfl, by simpa using may⟩
          rw [behind] at more
          cases more
      | name :: next :: rest, _ =>
          have front : c.rest = .leaf (.ident name) :: .leaf (.punct ':' true) :: .leaf (.punct ':' false)
              :: trees (Ident.pathGlyphs (next :: rest)) := by
            rw [here]
            cases rest <;> rfl
          refine Yields.bind (yields_name front (by cases rest <;> rfl)) ?_
          rintro s c' ⟨rfl, may, behind⟩
          refine Yields.ifAhead (fun _ => ?_) fun alone => ?_
          · have colons : Yields (takeOp [':', ':']) r c' fun _ d => d.rest = trees (Ident.pathGlyphs (next :: rest)) := by
              refine Yields.ifAhead (fun _ => ?_) fun _ => Yields.fail
              intro _ d ran
              cases ran
              simp [Cursor.skip, behind]
            refine Yields.bind colons fun _ d later => ?_
            refine Yields.bind (ih (List.cons_ne_nil next rest) later) fun path _ found => Yields.pure ?_
            exact ⟨by rw [found.1]; rfl, List.forall_mem_cons.mpr ⟨may, found.2⟩⟩
          · rw [behind] at alone
            cases rest <;> cases alone

/-- Names that are read as a path may all be segments. -/
theorem names_of_path_text (some : names ≠ []) {read : Bool × List Segment}
    (parsed : pathText (Ident.path names) = .ok read) :
    read = (false, names.map .plain) ∧ ∀ name ∈ names, name.Names := by
  rw [Ident.path_eq_glyphs, path_text_eq] at parsed
  obtain ⟨n, c', ran⟩ := run_of_parse_glyphs (Ident.apart_path names) parsed
  have noColons : Ahead.op [':', ':'] (trees (Ident.pathGlyphs names)) = false := by
    obtain ⟨name, more, rfl⟩ := List.exists_cons_of_ne_nil some
    rw [Ident.pathGlyphs, List.map_cons, Glyph.between_cons_cons]
    rfl
  have yields : Yields wholePath (rules n) (.start (trees (Ident.pathGlyphs names)))
      fun found _ => found = (false, names.map .plain) ∧ ∀ name ∈ names, name.Names := by
    refine Yields.bind Yields.someOp ?_
    rintro rooted c' ⟨seen, stays⟩
    obtain rfl : rooted = false := seen.trans noColons
    obtain rfl := stays rfl
    refine Yields.bind (Yields.get (yields_names some rfl _)) fun path _ found => Yields.pure ?_
    exact ⟨by rw [found.1], found.2⟩
  exact yields read c' ran

end Parsing

end Accessors
