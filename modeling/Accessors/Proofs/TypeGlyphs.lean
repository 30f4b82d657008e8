import Accessors.Proofs.Glyphs
import Accessors.Proofs.WrittenParts

/-!
The glyphs that a type is written in. They are its text, and the lexer reads them back, for every type whose
writing keeps all that it is made of. What is shown as tokens, the arguments of an associated name with bounds, and
the `::` in front of the trait of a projection are not kept. Two more forms are written like other types: a trait
object of one plain trait without the word `dyn`, which is written as a path, and a sum in which a bound that is
not the last ends in a type that goes on over a plus sign.
-/

namespace Accessors

namespace Glyph

/-- The glyphs of a parameter of a `for` binder. Only plain lifetimes have any. -/
def param : List Lexeme → List Glyph
  | [.lifetime l] => [lifetime l]
  | _ => []

def binder : Option Binder → List Glyph
  | none => []
  | some params => keyword "for" :: mark '<' :: (between comma (params.map param) ++ [mark '>', blank])

def abi : Option (Option TextLiteral) → List Glyph
  | none => []
  | some none => [keyword "extern", blank]
  | some (some name) => [keyword "extern", blank, literal name, blank]

/-- The word that stands for any type. -/
abbrev anyType : Glyph := word default

/-- The word of a function pointer that may break the rules. -/
abbrev unsafeWord : Glyph := keyword "unsafe"

/-- The word of every function pointer. -/
abbrev fnWord : Glyph := keyword "fn"

end Glyph

open Glyph (blank mark word lifetime literal group keyword colons comma plus between anyType unsafeWord fnWord)

mutual

def Ty.glyphs : Ty → List Glyph
  | .path rooted segments => (if rooted then colons else []) ++ between colons (segmentGlyphs segments)
  | .projection subject _ [] rest =>
      mark '<' :: (subject.glyphs ++ mark '>' :: (colons ++ between colons (segmentGlyphs rest)))
  | .projection subject _ (first :: more) rest =>
      mark '<' :: (subject.glyphs ++ blank :: keyword "as" :: blank
        :: (between colons (first.glyphs :: segmentGlyphs more) ++ mark '>'
          :: (colons ++ between colons (segmentGlyphs rest))))
  | .reference l isMut target =>
      mark '&' :: ((match l with | some l => [lifetime l, blank] | none => [])
        ++ ((if isMut then [keyword "mut", blank] else []) ++ target.glyphs))
  | .pointer isMut target =>
      mark '*' :: (if isMut then keyword "mut" else keyword "const") :: blank :: target.glyphs
  | .slice element => [group .bracket element.glyphs]
  | .array _ _ => []
  | .tuple [only] => [group .paren (only.glyphs ++ [mark ','])]
  | .tuple elements => [group .paren (between comma (tyGlyphs elements))]
  | .paren inner => [group .paren inner.glyphs]
  | .never => [mark '!']
  | .infer => [anyType]
  | .object isDyn bounds =>
      (if isDyn then [keyword "dyn", blank] else []) ++ between plus (boundGlyphs bounds)
  | .opaqueImpl bounds => keyword "impl" :: blank :: between plus (boundGlyphs bounds)
  | .function binder isUnsafe abi inputs variadic output =>
      Glyph.binder binder ++ ((if isUnsafe then [unsafeWord, blank] else []) ++ (Glyph.abi abi
        ++ fnWord :: group .paren
          (between comma (inputGlyphs inputs ++ if variadic then [[mark '.', mark '.', mark '.']] else []))
          :: outputGlyphs output))
  | .verbatim _ => []

def Segment.glyphs : Segment → List Glyph
  | .plain name => [word name]
  | .angle name turbofish args =>
      word name :: ((if turbofish then colons else []) ++ mark '<' :: (between comma (argGlyphs args) ++ [mark '>']))
  | .call name inputs output =>
      word name :: group .paren (between comma (tyGlyphs inputs)) :: outputGlyphs output

/-- The result behind an arrow. -/
def outputGlyphs : Option Ty → List Glyph
  | none => []
  | some output => blank :: mark '-' :: mark '>' :: blank :: output.glyphs

def GenericArg.glyphs : GenericArg → List Glyph
  | .lifetime l => [lifetime l]
  | .type t => t.glyphs
  | .const _ => []
  | .binding name args t => word name :: (ownGlyphs args ++ blank :: mark '=' :: blank :: t.glyphs)
  | .constraint name _ bounds => word name :: mark ':' :: blank :: between plus (boundGlyphs bounds)

/-- The arguments of an associated name. -/
def ownGlyphs : Option (List GenericArg) → List Glyph
  | none => []
  | some args => mark '<' :: (between comma (argGlyphs args) ++ [mark '>'])

def Bound.glyphs : Bound → List Glyph
  | .lifetime l => [lifetime l]
  | .trait inParens relaxed binder rooted segments =>
      let inner := (if relaxed then [mark '?'] else []) ++ (Glyph.binder binder
        ++ ((if rooted then colons else []) ++ between colons (segmentGlyphs segments)))
      if inParens then [group .paren inner] else inner
  | .verbatim _ => []

def Input.glyphs : Input → List Glyph
  | .mk none t => t.glyphs
  | .mk (some name) t => word name :: mark ':' :: blank :: t.glyphs

def tyGlyphs : List Ty → List (List Glyph)
  | [] => []
  | t :: rest => t.glyphs :: tyGlyphs rest

def segmentGlyphs : List Segment → List (List Glyph)
  | [] => []
  | s :: rest => s.glyphs :: segmentGlyphs rest

def argGlyphs : List GenericArg → List (List Glyph)
  | [] => []
  | a :: rest => a.glyphs :: argGlyphs rest

def boundGlyphs : List Bound → List (List Glyph)
  | [] => []
  | b :: rest => b.glyphs :: boundGlyphs rest

def inputGlyphs : List Input → List (List Glyph)
  | [] => []
  | i :: rest => i.glyphs :: inputGlyphs rest

end

/-! Types that go on over a plus sign, where a single bound is asked for. -/

mutual

/-- Whether a type that may not be a sum still takes in the bounds that are added behind it. -/
def Ty.swallows : Ty → Bool
  | .reference _ _ target => target.swallows
  | .pointer _ target => target.swallows
  | .function _ _ _ _ _ output => outputSwallows output
  | .object false (.lifetime _ :: _) => true
  | .object false (.trait true true _ _ _ :: _) => true
  | .object _ bounds => boundsSwallow bounds
  | .opaqueImpl bounds => boundsSwallow bounds
  | _ => false

def outputSwallows : Option Ty → Bool
  | none => false
  | some output => output.swallows

/-- A bound does so by the result of its parenthesized arguments. -/
def Bound.swallows : Bound → Bool
  | .trait false _ _ _ segments => segmentsSwallow segments
  | _ => false

def segmentsSwallow : List Segment → Bool
  | [] => false
  | [.call _ _ output] => outputSwallows output
  | _ :: rest => segmentsSwallow rest

def boundsSwallow : List Bound → Bool
  | [] => false
  | [last] => last.swallows
  | _ :: rest => boundsSwallow rest

end

/-! Types whose writing keeps all that they are made of. -/

/-- A binder of plain lifetimes. -/
def plainBinder : Option Binder → Bool
  | none => true
  | some params => params.all fun | [.lifetime _] => true | _ => false

/-- A trait object of one plain trait, which only a plus sign behind it told from a path. -/
def loneTrait : Bool → List Bound → Bool
  | false, [.trait false false none _ _] => true
  | _, _ => false

mutual

def Ty.faithful : Ty → Bool
  | .path _ segments => segmentsFaithful segments
  | .projection subject traitRooted traitPath rest =>
      !traitRooted && subject.faithful && segmentsFaithful traitPath && segmentsFaithful rest
  | .reference _ _ target => target.faithful
  | .pointer _ target => target.faithful
  | .slice element => element.faithful
  | .array _ _ => false
  | .tuple elements => tysFaithful elements
  | .paren inner => inner.faithful
  | .never => true
  | .infer => true
  | .object isDyn bounds => !loneTrait isDyn bounds && boundsFaithful bounds
  | .opaqueImpl bounds => boundsFaithful bounds
  | .function binder _ _ inputs _ output => plainBinder binder && inputsFaithful inputs && outputFaithful output
  | .verbatim _ => false

def Segment.faithful : Segment → Bool
  | .plain _ => true
  | .angle _ _ args => argsFaithful args
  | .call _ inputs output => tysFaithful inputs && outputFaithful output

def outputFaithful : Option Ty → Bool
  | none => true
  | some output => output.faithful

def GenericArg.faithful : GenericArg → Bool
  | .lifetime _ => true
  | .type t => t.faithful
  | .const _ => false
  | .binding _ args t => ownFaithful args && t.faithful
  | .constraint _ args bounds => args.isNone && boundsFaithful bounds

def ownFaithful : Option (List GenericArg) → Bool
  | none => true
  | some args => argsFaithful args

def Bound.faithful : Bound → Bool
  | .lifetime _ => true
  | .trait _ _ binder _ segments => plainBinder binder && segmentsFaithful segments
  | .verbatim _ => false

def Input.faithful : Input → Bool
  | .mk _ t => t.faithful

def tysFaithful : List Ty → Bool
  | [] => true
  | t :: rest => t.faithful && tysFaithful rest

def segmentsFaithful : List Segment → Bool
  | [] => true
  | s :: rest => s.faithful && segmentsFaithful rest

def argsFaithful : List GenericArg → Bool
  | [] => true
  | a :: rest => a.faithful && argsFaithful rest

/-- The bounds of a sum. -/
def boundsFaithful : List Bound → Bool
  | [] => true
  | b :: rest => b.faithful && (rest.isEmpty || !b.swallows) && boundsFaithful rest

def inputsFaithful : List Input → Bool
  | [] => true
  | i :: rest => i.faithful && inputsFaithful rest

end

section

theorem ty_glyphs_eq (ts : List Ty) : tyGlyphs ts = ts.map Ty.glyphs := by
  induction ts with
  | nil => rfl
  | cons t rest ih => rw [tyGlyphs, ih, List.map_cons]

theorem segment_glyphs_eq (segments : List Segment) : segmentGlyphs segments = segments.map Segment.glyphs := by
  induction segments with
  | nil => rfl
  | cons s rest ih => rw [segmentGlyphs, ih, List.map_cons]

theorem arg_glyphs_eq (args : List GenericArg) : argGlyphs args = args.map GenericArg.glyphs := by
  induction args with
  | nil => rfl
  | cons a rest ih => rw [argGlyphs, ih, List.map_cons]

theorem bound_glyphs_eq (bounds : List Bound) : boundGlyphs bounds = bounds.map Bound.glyphs := by
  induction bounds with
  | nil => rfl
  | cons b rest ih => rw [boundGlyphs, ih, List.map_cons]

theorem input_glyphs_eq (inputs : List Input) : inputGlyphs inputs = inputs.map Input.glyphs := by
  induction inputs with
  | nil => rfl
  | cons i rest ih => rw [inputGlyphs, ih, List.map_cons]

end

/-! The glyphs are the text. -/

/-- The characters of a pattern that occurs in a text stand in the text. -/
theorem Text.mem_of_occurs {pattern text : List Char} (occurs : Text.occurs pattern text = true) :
    ∀ c ∈ pattern, c ∈ text := by
  induction text with
  | nil =>
      obtain rfl : pattern = [] := by simpa [Text.occurs] using occurs
      simp
  | cons d text ih =>
      intro c member
      rcases (Bool.or_eq_true _ _).mp occurs with here | later
      · exact (List.isPrefixOf_iff_prefix.mp here).subset member
      · exact List.mem_cons_of_mem d (ih later c member)

/-- Text without spaces has none to close. -/
theorem Spacing.tighten_of_no_space {text : List Char} (solid : ' ' ∉ text) : Spacing.tighten text = text := by
  have kept : ∀ some : List Rule, (∀ rule ∈ some, ' ' ∈ rule.spaced) → some.foldl Rule.apply text = text := by
    intro some
    induction some with
    | nil => exact fun _ => rfl
    | cons rule rest ih =>
        intro all
        have absent : Text.occurs rule.spaced text = false :=
          Bool.eq_false_iff.mpr fun occurs => solid (Text.mem_of_occurs occurs ' ' (all rule List.mem_cons_self))
        have same : Rule.apply text rule = text := by
          rw [Rule.apply]
          cases text.length with
          | zero => rfl
          | succ n => rw [Rule.close, absent, if_neg (by decide)]
        rw [List.foldl_cons, same]
        exact ih fun other member => all other (List.mem_cons_of_mem rule member)
  exact kept rules (by decide)

theorem Lexeme.render_lifetime (l : Lifetime) : Lexeme.render [.lifetime l] = l.text := by
  have solid : ' ' ∉ l.text.toList := by
    simp only [Lifetime.text, String.toList_append, List.mem_append, not_or]
    refine ⟨by decide, fun member => ?_⟩
    have char := l.name.chars ' ' member
    revert char
    decide
  rw [Lexeme.render, Lexeme.spaced, Lexeme.text, Spacing.tighten_of_no_space solid, String.ofList_toList]

namespace Signature

open Glyph (charsAll)

/-- The texts of several things are their glyphs, a separator between each two. -/
theorem chars_between {separator : String} {glyphs : List Glyph} (same : separator.toList = charsAll glyphs)
    {texts : List String} {pieces : List (List Glyph)} (each : texts.map String.toList = pieces.map charsAll) :
    (Text.join separator texts).toList = charsAll (between glyphs pieces) := by
  induction texts generalizing pieces with
  | nil =>
      obtain rfl : pieces = [] := by simpa using each.symm
      rfl
  | cons text rest ih =>
      match pieces with
      | [] => simp at each
      | piece :: pieces =>
          obtain ⟨head, tail⟩ := List.cons.inj each
          match rest, pieces with
          | [], [] => simpa [Text.join, between] using head
          | [], _ :: _ => simp at tail
          | _ :: _, [] => simp at tail
          | next :: rest, other :: pieces =>
              have joined := ih tail
              have some : next :: rest ≠ [] := List.cons_ne_nil next rest
              rw [Text.join, String.intercalate_cons_of_ne_nil some, between, Glyph.chars_all_append,
                Glyph.chars_all_append, ← joined, ← same, ← head]
              simp [Text.join]

theorem chars_separated {separator : String} {glyphs : List Glyph} (same : separator.toList = charsAll glyphs)
    {elements : List (List Part)} {pieces : List (List Glyph)}
    (each : (elements.map (written .empty)).map String.toList = pieces.map charsAll) :
    (written .empty (separated separator elements)).toList = charsAll (between glyphs pieces) := by
  rw [written_separated]
  exact chars_between same each

/-- Without imports the first name of a path is written like the others. -/
theorem chars_path {segments : List Segment} {pieces : List (List Glyph)}
    (each : ((segments.map segment).map (written .empty)).map String.toList = pieces.map charsAll) :
    (written .empty (pathParts segments)).toList = charsAll (between colons pieces) := by
  rw [written_path_empty]
  exact chars_between rfl (by simpa [Function.comp_def] using each)

theorem chars_binder {binder : Option Binder} (plain : plainBinder binder = true) :
    (binderText? binder).toList = charsAll (Glyph.binder binder) := by
  cases binder with
  | none => rfl
  | some params =>
      have each : (params.map Lexeme.render).map String.toList = (params.map Glyph.param).map charsAll := by
        simp only [List.map_map]
        refine List.map_congr_left fun param member => ?_
        have lone := List.all_eq_true.mp plain param member
        match param, lone with
        | [.lifetime l], _ => simp [Lexeme.render_lifetime, Glyph.param, Glyph.chars]
      have joined : (Text.join ", " (params.map Lexeme.render)).toList
          = charsAll (between comma (params.map Glyph.param)) := chars_between rfl each
      simp [binderText?, binderText, Glyph.binder, joined, Glyph.chars]

theorem chars_abi (abi : Option (Option TextLiteral)) : (abiText abi).toList = charsAll (Glyph.abi abi) := by
  match abi with
  | none => rfl
  | some none => rfl
  | some (some name) => simp [abiText, Glyph.abi, Glyph.chars]

theorem chars_colons : "::".toList = charsAll colons := rfl

theorem chars_comma : ", ".toList = charsAll comma := rfl

theorem chars_plus : " + ".toList = charsAll plus := rfl

mutual

theorem chars_ty (t : Ty) (faithful : t.faithful = true) :
    (written .empty (parts t)).toList = charsAll t.glyphs := by
  cases t with
  | path rooted segments =>
      have each := chars_segments segments (by simpa [Ty.faithful] using faithful)
      cases rooted with
      | true =>
          simp [Ty.glyphs, parts, segment_list_eq, segment_glyphs_eq, chars_separated chars_colons each, Glyph.chars,
            -written_separated]
      | false => simpa [Ty.glyphs, parts, segment_glyphs_eq] using chars_path each
  | projection subject rooted traitPath rest =>
      simp only [Ty.faithful, Bool.and_eq_true] at faithful
      have behind := chars_separated chars_colons (chars_segments rest faithful.2)
      cases traitPath with
      | nil =>
          simp [Ty.glyphs, parts, segment_list_eq, segment_glyphs_eq, behind, chars_ty subject faithful.1.1.2,
            Glyph.chars, -written_separated]
      | cons first more =>
          have path := chars_separated chars_colons (chars_segments (first :: more) faithful.1.2)
          simp only [List.map_cons] at path
          simp [Ty.glyphs, parts, segment_list_eq, segment_glyphs_eq, behind, path, chars_ty subject faithful.1.1.2,
            Glyph.chars, -written_separated]
  | reference lifetime isMut target =>
      have inner := chars_ty target (by simpa [Ty.faithful] using faithful)
      cases lifetime <;> cases isMut <;> simp [Ty.glyphs, parts, inner, Glyph.chars]
  | pointer isMut target =>
      have inner := chars_ty target (by simpa [Ty.faithful] using faithful)
      cases isMut <;> simp [Ty.glyphs, parts, inner, Glyph.chars]
  | slice element =>
      have inner := chars_ty element (by simpa [Ty.faithful] using faithful)
      simp [Ty.glyphs, parts, inner, Glyph.chars, Delimiter.opening, Delimiter.closing]
  | array element length => simp [Ty.faithful] at faithful
  | tuple elements =>
      have each := chars_tys elements (by simpa [Ty.faithful] using faithful)
      match elements with
      | [] => rfl
      | [only] =>
          have inner : (written .empty (parts only)).toList = charsAll only.glyphs := by simpa using each
          simp [Ty.glyphs, parts, inner, Glyph.chars, Delimiter.opening, Delimiter.closing]
      | first :: second :: rest =>
          have joined := chars_separated chars_comma each
          simp only [List.map_cons] at joined
          simp [Ty.glyphs, parts, ty_list_eq, ty_glyphs_eq, joined, Glyph.chars, Delimiter.opening,
            Delimiter.closing, -written_separated]
  | paren inner =>
      have inside := chars_ty inner (by simpa [Ty.faithful] using faithful)
      simp [Ty.glyphs, parts, inside, Glyph.chars, Delimiter.opening, Delimiter.closing]
  | never => rfl
  | infer => rfl
  | object isDyn bounds =>
      simp only [Ty.faithful, Bool.and_eq_true] at faithful
      have each := chars_separated chars_plus (chars_bounds bounds faithful.2)
      cases isDyn <;> simp [Ty.glyphs, parts, bound_list_eq, bound_glyphs_eq, each, Glyph.chars, -written_separated]
  | opaqueImpl bounds =>
      have each := chars_separated chars_plus (chars_bounds bounds (by simpa [Ty.faithful] using faithful))
      simp [Ty.glyphs, parts, bound_list_eq, bound_glyphs_eq, each, Glyph.chars, -written_separated]
  | function binder isUnsafe abi inputs variadic output =>
      simp only [Ty.faithful, Bool.and_eq_true] at faithful
      have dots : ((inputs.map input ++ if variadic then [[Part.text "..."]] else []).map (written .empty)).map
            String.toList
          = (inputs.map Input.glyphs ++ if variadic then [[mark '.', mark '.', mark '.']] else []).map charsAll := by
        have listed := chars_inputs inputs faithful.1.2
        cases variadic <;> simp_all [Glyph.chars]
      have each := chars_separated chars_comma dots
      have result := chars_output output faithful.2
      simp only [Ty.glyphs, parts, input_list_eq, input_glyphs_eq]
      cases isUnsafe <;>
        simp [each, result, chars_binder faithful.1.1, chars_abi, Glyph.chars, Delimiter.opening, Delimiter.closing,
          -written_separated]
  | verbatim lexemes => simp [Ty.faithful] at faithful

theorem chars_segment (s : Segment) (faithful : s.faithful = true) :
    (written .empty (segment s)).toList = charsAll s.glyphs := by
  cases s with
  | plain name => simp [segment, Segment.glyphs, Glyph.chars]
  | angle name turbofish args =>
      have each := chars_separated chars_comma (chars_args args (by simpa [Segment.faithful] using faithful))
      cases turbofish <;>
        simp [segment, Segment.glyphs, arg_list_eq, arg_glyphs_eq, each, Glyph.chars, -written_separated]
  | call name inputs output =>
      simp only [Segment.faithful, Bool.and_eq_true] at faithful
      have each := chars_separated chars_comma (chars_tys inputs faithful.1)
      simp [segment, Segment.glyphs, ty_list_eq, ty_glyphs_eq, each, chars_output output faithful.2, Glyph.chars,
        Delimiter.opening, Delimiter.closing, -written_separated]

theorem chars_output (output : Option Ty) (faithful : outputFaithful output = true) :
    (written .empty (resultParts output)).toList = charsAll (outputGlyphs output) := by
  cases output with
  | none => rfl
  | some t => simp [resultParts, outputGlyphs, chars_ty t (by simpa [outputFaithful] using faithful), Glyph.chars]

theorem chars_arg (a : GenericArg) (faithful : a.faithful = true) :
    (written .empty (arg a)).toList = charsAll a.glyphs := by
  cases a with
  | lifetime l => simp [arg, GenericArg.glyphs, Glyph.chars]
  | type t => exact chars_ty t (by simpa [GenericArg.faithful] using faithful)
  | const lexemes => simp [GenericArg.faithful] at faithful
  | binding name args t =>
      simp only [GenericArg.faithful, Bool.and_eq_true] at faithful
      have inner := chars_ty t faithful.2
      cases args with
      | none => simp [arg, ownArgs, GenericArg.glyphs, ownGlyphs, inner, Glyph.chars]
      | some args =>
          have each := chars_separated chars_comma (chars_args args (by simpa [ownFaithful] using faithful.1))
          simp [arg, ownArgs, arg_list_eq, GenericArg.glyphs, ownGlyphs, arg_glyphs_eq, inner, each, Glyph.chars,
            -written_separated]
  | constraint name args bounds =>
      simp only [GenericArg.faithful, Bool.and_eq_true] at faithful
      have each := chars_separated chars_plus (chars_bounds bounds faithful.2)
      simp [arg, GenericArg.glyphs, bound_list_eq, bound_glyphs_eq, each, Glyph.chars, -written_separated]

theorem chars_bound (b : Bound) (faithful : b.faithful = true) :
    (written .empty (bound b)).toList = charsAll b.glyphs := by
  cases b with
  | lifetime l => simp [bound, Bound.glyphs, Glyph.chars]
  | trait inParens relaxed binder rooted segments =>
      simp only [Bound.faithful, Bool.and_eq_true] at faithful
      have each := chars_segments segments faithful.2
      have path : (written .empty (if rooted then .text "::" :: separated "::" (segmentList segments)
            else pathParts segments)).toList
          = charsAll ((if rooted then colons else []) ++ between colons (segmentGlyphs segments)) := by
        cases rooted with
        | true =>
            simp [segment_list_eq, segment_glyphs_eq, chars_separated chars_colons each, Glyph.chars,
              -written_separated]
        | false => simpa [segment_glyphs_eq] using chars_path each
      cases inParens <;> cases relaxed <;>
        simp [bound, Bound.glyphs, path, chars_binder faithful.1, Glyph.chars, Delimiter.opening, Delimiter.closing]
  | verbatim lexemes => simp [Bound.faithful] at faithful

theorem chars_input (i : Input) (faithful : i.faithful = true) :
    (written .empty (input i)).toList = charsAll i.glyphs := by
  cases i with
  | mk name t =>
      have inner := chars_ty t (by simpa [Input.faithful] using faithful)
      cases name <;> simp [input, Input.glyphs, inner, Glyph.chars]

theorem chars_tys (ts : List Ty) (faithful : tysFaithful ts = true) :
    ((ts.map parts).map (written .empty)).map String.toList = (ts.map Ty.glyphs).map charsAll := by
  cases ts with
  | nil => rfl
  | cons t rest =>
      simp only [tysFaithful, Bool.and_eq_true] at faithful
      simpa [chars_ty t faithful.1] using chars_tys rest faithful.2

theorem chars_segments (segments : List Segment) (faithful : segmentsFaithful segments = true) :
    ((segments.map segment).map (written .empty)).map String.toList = (segments.map Segment.glyphs).map charsAll := by
  cases segments with
  | nil => rfl
  | cons s rest =>
      simp only [segmentsFaithful, Bool.and_eq_true] at faithful
      simpa [chars_segment s faithful.1] using chars_segments rest faithful.2

theorem chars_args (args : List GenericArg) (faithful : argsFaithful args = true) :
    ((args.map arg).map (written .empty)).map String.toList = (args.map GenericArg.glyphs).map charsAll := by
  cases args with
  | nil => rfl
  | cons a rest =>
      simp only [argsFaithful, Bool.and_eq_true] at faithful
      simpa [chars_arg a faithful.1] using chars_args rest faithful.2

theorem chars_bounds (bounds : List Bound) (faithful : boundsFaithful bounds = true) :
    ((bounds.map bound).map (written .empty)).map String.toList = (bounds.map Bound.glyphs).map charsAll := by
  cases bounds with
  | nil => rfl
  | cons b rest =>
      simp only [boundsFaithful, Bool.and_eq_true] at faithful
      simpa [chars_bound b faithful.1.1] using chars_bounds rest faithful.2

theorem chars_inputs (inputs : List Input) (faithful : inputsFaithful inputs = true) :
    ((inputs.map input).map (written .empty)).map String.toList = (inputs.map Input.glyphs).map charsAll := by
  cases inputs with
  | nil => rfl
  | cons i rest =>
      simp only [inputsFaithful, Bool.and_eq_true] at faithful
      simpa [chars_input i faithful.1] using chars_inputs rest faithful.2

end

/-- A type is written in its glyphs. -/
theorem ty_eq_glyphs {t : Ty} (faithful : t.faithful = true) :
    Signature.ty .empty t = String.ofList (charsAll t.glyphs) := by
  rw [← chars_ty t faithful, String.ofList_toList]
  rfl

end Signature

/-! The glyphs of a type stay apart. -/

namespace Glyph

theorem apart_binder (b : Option Binder) {rest : List Glyph} (tidy : apart rest = true) :
    apart (Glyph.binder b ++ rest) = true := by
  cases b with
  | none => exact tidy
  | some params =>
      have inner : apart (between comma (params.map param)) = true := by
        refine apart_comma fun piece member => ?_
        obtain ⟨p, -, rfl⟩ := List.mem_map.mp member
        unfold param
        split <;> rfl
      have behind : apart (between comma (params.map param) ++ mark '>' :: blank :: rest) = true :=
        apart_mark (by decide) inner tidy
      simpa [binder, apartBefore, opensWord, Lexer.marks] using behind

theorem apart_abi (a : Option (Option TextLiteral)) {rest : List Glyph} (tidy : apart rest = true) :
    apart (Glyph.abi a ++ rest) = true := by
  match a with
  | none => exact tidy
  | some none => simpa [abi, apartBefore, opensWord] using tidy
  | some (some name) => simpa [abi, apartBefore, opensWord] using tidy

end Glyph

open Glyph (apart apartBefore opensWord apart_append apart_mark apart_blank apart_colons apart_colons_cons apart_comma apart_plus apart_binder apart_abi)

mutual

theorem apart_ty (t : Ty) : apart t.glyphs = true := by
  cases t with
  | path rooted segments =>
      have tidy := apart_colons (apart_segments segments)
      cases rooted <;> simpa [Ty.glyphs, segment_glyphs_eq, apartBefore, Lexer.marks] using tidy
  | projection subject rooted traitPath rest =>
      cases traitPath with
      | nil =>
          simpa [Ty.glyphs, segment_glyphs_eq, apartBefore, Lexer.marks]
            using apart_mark (by decide : '>' ∈ Lexer.marks) (apart_ty subject) (apart_colons_cons (apart_segments rest))
      | cons first more =>
          have path := apart_mark (by decide : '>' ∈ Lexer.marks) (apart_colons (apart_segments (first :: more)))
            (apart_colons_cons (apart_segments rest))
          have whole : apart (blank :: keyword "as" :: blank :: (between colons ((first :: more).map Segment.glyphs)
              ++ mark '>' :: (colons ++ between colons (rest.map Segment.glyphs)))) = true := path
          simpa [Ty.glyphs, segment_glyphs_eq, apartBefore, Lexer.marks]
            using apart_append subject.glyphs _ (apart_ty subject) whole rfl
  | reference l isMut target =>
      cases l <;> cases isMut <;> simp [Ty.glyphs, apart_ty target, apartBefore, Lexer.marks, opensWord]
  | pointer isMut target =>
      cases isMut <;> simp [Ty.glyphs, apart_ty target, apartBefore, Lexer.marks, opensWord]
  | slice element => simp [Ty.glyphs, apart_ty element, apartBefore]
  | array element length => rfl
  | tuple elements =>
      have each := apart_tys elements
      match elements with
      | [] => rfl
      | [only] =>
          simpa [Ty.glyphs, apartBefore] using apart_mark (by decide : ',' ∈ Lexer.marks) (apart_ty only) rfl
      | first :: second :: rest =>
          have tidy := apart_comma each
          simp only [List.map_cons] at tidy
          simp [Ty.glyphs, ty_glyphs_eq, apartBefore, tidy]
  | paren inner => simp [Ty.glyphs, apart_ty inner, apartBefore]
  | never => rfl
  | infer => rfl
  | object isDyn bounds =>
      have tidy := apart_plus (apart_bounds bounds)
      cases isDyn <;> simp [Ty.glyphs, bound_glyphs_eq, tidy, apartBefore, opensWord]
  | opaqueImpl bounds =>
      have tidy := apart_plus (apart_bounds bounds)
      simp [Ty.glyphs, bound_glyphs_eq, tidy, apartBefore, opensWord]
  | function binder isUnsafe abi inputs variadic output =>
      have each : ∀ piece ∈ inputs.map Input.glyphs ++ (if variadic then [[mark '.', mark '.', mark '.']] else []),
          apart piece = true := by
        intro piece member
        rcases List.mem_append.mp member with listed | dots
        · exact apart_inputs inputs piece listed
        · cases variadic <;> simp_all [apartBefore, Lexer.marks]
      have rest : apart ((if isUnsafe then [keyword "unsafe", blank] else []) ++ (Glyph.abi abi ++ keyword "fn"
          :: group .paren (between comma (inputs.map Input.glyphs
            ++ if variadic then [[mark '.', mark '.', mark '.']] else [])) :: outputGlyphs output)) = true := by
        have tail : apart (keyword "fn" :: group .paren (between comma (inputs.map Input.glyphs
            ++ if variadic then [[mark '.', mark '.', mark '.']] else [])) :: outputGlyphs output) = true := by
          simpa [apartBefore, opensWord, apart_output output] using apart_comma each
        have behind := apart_abi abi tail
        cases isUnsafe with
        | false => exact behind
        | true => simpa [apartBefore, opensWord] using behind
      simpa [Ty.glyphs, input_glyphs_eq] using apart_binder binder rest
  | verbatim lexemes => rfl

theorem apart_segment (s : Segment) : apart s.glyphs = true := by
  cases s with
  | plain name => rfl
  | angle name turbofish args =>
      have inner := apart_mark (by decide : '>' ∈ Lexer.marks) (apart_comma (apart_args args)) Glyph.apart_nil
      cases turbofish <;>
        simpa [Segment.glyphs, arg_glyphs_eq, apartBefore, opensWord, Lexer.marks] using inner
  | call name inputs output =>
      simp [Segment.glyphs, ty_glyphs_eq, apartBefore, opensWord, apart_comma (apart_tys inputs), apart_output output]

theorem apart_output (output : Option Ty) : apart (outputGlyphs output) = true := by
  cases output with
  | none => rfl
  | some t => simp [outputGlyphs, apart_ty t, apartBefore, Lexer.marks]

theorem apart_arg (a : GenericArg) : apart a.glyphs = true := by
  cases a with
  | lifetime l => rfl
  | type t => exact apart_ty t
  | const lexemes => rfl
  | binding name args t =>
      cases args with
      | none => simp [GenericArg.glyphs, ownGlyphs, apart_ty t, apartBefore, opensWord, Lexer.marks]
      | some args =>
          have behind : apart (blank :: mark '=' :: blank :: t.glyphs) = true := by
            simp [apart_ty t, apartBefore, Lexer.marks]
          have inner := apart_mark (by decide : '>' ∈ Lexer.marks) (apart_comma (apart_args args)) behind
          simpa [GenericArg.glyphs, ownGlyphs, arg_glyphs_eq, apartBefore, opensWord, Lexer.marks] using inner
  | constraint name args bounds =>
      simp [GenericArg.glyphs, bound_glyphs_eq, apart_plus (apart_bounds bounds), apartBefore, opensWord, Lexer.marks]

theorem apart_bound (b : Bound) : apart b.glyphs = true := by
  cases b with
  | lifetime l => rfl
  | trait inParens relaxed binder rooted segments =>
      have path : apart ((if rooted then colons else []) ++ between colons (segments.map Segment.glyphs)) = true := by
        cases rooted with
        | true => exact apart_colons_cons (apart_segments segments)
        | false => exact apart_colons (apart_segments segments)
      have bound := apart_binder binder path
      cases inParens <;> cases relaxed <;>
        simpa [Bound.glyphs, segment_glyphs_eq, apartBefore, opensWord, Lexer.marks] using bound
  | verbatim lexemes => rfl

theorem apart_input (i : Input) : apart i.glyphs = true := by
  cases i with
  | mk name t => cases name <;> simp [Input.glyphs, apart_ty t, apartBefore, opensWord, Lexer.marks]

theorem apart_tys (ts : List Ty) : ∀ piece ∈ ts.map Ty.glyphs, apart piece = true := by
  cases ts with
  | nil => exact fun _ member => nomatch member
  | cons t rest => exact List.forall_mem_cons.mpr ⟨apart_ty t, apart_tys rest⟩

theorem apart_segments (segments : List Segment) : ∀ piece ∈ segments.map Segment.glyphs, apart piece = true := by
  cases segments with
  | nil => exact fun _ member => nomatch member
  | cons s rest => exact List.forall_mem_cons.mpr ⟨apart_segment s, apart_segments rest⟩

theorem apart_args (args : List GenericArg) : ∀ piece ∈ args.map GenericArg.glyphs, apart piece = true := by
  cases args with
  | nil => exact fun _ member => nomatch member
  | cons a rest => exact List.forall_mem_cons.mpr ⟨apart_arg a, apart_args rest⟩

theorem apart_bounds (bounds : List Bound) : ∀ piece ∈ bounds.map Bound.glyphs, apart piece = true := by
  cases bounds with
  | nil => exact fun _ member => nomatch member
  | cons b rest => exact List.forall_mem_cons.mpr ⟨apart_bound b, apart_bounds rest⟩

theorem apart_inputs (inputs : List Input) : ∀ piece ∈ inputs.map Input.glyphs, apart piece = true := by
  cases inputs with
  | nil => exact fun _ member => nomatch member
  | cons i rest => exact List.forall_mem_cons.mpr ⟨apart_input i, apart_inputs rest⟩

end

end Accessors
