import Accessors.Decimal.Shortest

/-!
Writing decimals. Positional notation has no exponent and no point without digits after it; compact notation
keeps a digit after the point and has an exponent for large and small numbers.
-/

namespace Accessors.Decimal

def zeros (n : Nat) : String := String.ofList (List.replicate n '0')

/-- Digits with the point after the first `before` of them. -/
def pointed (digits : String) (before : Int) : String :=
  if before ≤ 0 then "0." ++ zeros (-before).toNat ++ digits
  else
    String.ofList (digits.toList.take before.toNat) ++ "." ++ String.ofList (digits.toList.drop before.toNat)

def Scaled.positional (d : Scaled) : String :=
  let digits := toString d.digits
  if 0 ≤ d.exponent then digits ++ zeros d.exponent.toNat
  else pointed digits (digits.length + d.exponent)

/-- Compact notation, positional where the point stands after at most sixteen digits or before at most five
zeros. -/
def Scaled.compact (d : Scaled) : String :=
  let digits := toString d.digits
  let before : Int := digits.length + d.exponent
  if 0 ≤ d.exponent ∧ before ≤ 16 then digits ++ zeros d.exponent.toNat ++ ".0"
  else if -5 < before ∧ before ≤ 16 then pointed digits before
  else if digits.length = 1 then digits ++ "e" ++ toString (before - 1)
  else pointed digits 1 ++ "e" ++ toString (before - 1)

/-- A finite double in positional notation. -/
def positionalText (x : Float) : String :=
  (if isNegative x then "-" else "") ++ (ofFloat x).positional

/-- A finite double in compact notation. -/
def compactText (x : Float) : String :=
  (if isNegative x then "-" else "") ++ (ofFloat x).compact

end Accessors.Decimal
