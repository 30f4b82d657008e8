import Accessors.Signature.Basic

/-!
The generics of a struct as the three texts around the name in an implementation of it. Defaults are left
out, since they may not stand there.
-/

namespace Accessors.Signature

/-- The texts before, after and behind the name of the struct. -/
structure GenericsText where
  /-- Parameters with bounds, as in `<'a, T: Clone>`, or nothing. -/
  implGenerics : String
  /-- Parameters as arguments, as in `<'a, T>`, or nothing. -/
  typeGenerics : String
  /-- The `where` clause with a space before it, or nothing. -/
  whereClause : String
  deriving DecidableEq, Repr, Inhabited

/-- Something with bounds after a colon; without bounds there is no colon. -/
def bounded (subject : String) (bounds : List (List Part)) : List Part :=
  if bounds.isEmpty then [.text subject] else .text subject :: .text ": " :: separated " + " bounds

def lifetimeBound (l : Lifetime) : List Part := [.text l.text]

/-- A parameter as it is declared. -/
def param : GenericParam → List Part
  | .lifetime l bounds => bounded l.text (bounds.map lifetimeBound)
  | .type name bounds => bounded name.text (boundList bounds)
  | .const name t => .text "const " :: .text name.text :: .text ": " :: parts t

/-- A parameter as an argument. -/
def paramName : GenericParam → String
  | .lifetime l _ => l.text
  | .type name _ => name.text
  | .const name _ => name.text

def predicate : WherePredicate → List Part
  | .lifetime l bounds => .text l.text :: .text ": " :: separated " + " (bounds.map lifetimeBound)
  | .type binder subject bounds =>
      .text (binderText? binder) :: parts subject ++ .text ": " :: separated " + " (boundList bounds)

/-- A list in angle brackets, or nothing for no elements. -/
def angled (elements : List (List Part)) : List Part :=
  if elements.isEmpty then [] else .text "<" :: separated ", " elements ++ [.text ">"]

/-- The parts before the name of the struct. -/
def paramParts (g : Generics) : List Part := angled (g.params.map param)

/-- The parts behind the name and its arguments. -/
def whereParts (g : Generics) : List Part :=
  if g.predicates.isEmpty then []
  else .text " where " :: separated ", " (g.predicates.map predicate)

def generics (imports : ImportMap) (g : Generics) : GenericsText where
  implGenerics := written imports (paramParts g)
  typeGenerics := written imports (angled (g.params.map fun p => [.text (paramName p)]))
  whereClause := written imports (whereParts g)

/-- The texts of a struct without generics. -/
def GenericsText.none : GenericsText := ⟨"", "", ""⟩

theorem generics_of_empty (imports : ImportMap) : generics imports ⟨[], []⟩ = .none := rfl

end Accessors.Signature
