/-!
The shortest decimal of a double: the fewest digits that read back as the same double, and of these the
nearest to it. A finite double is `m · 2 ^ q`; the numbers that read back as it lie between the midpoints to
its neighbours, and the midpoints themselves do so if `m` is even.
-/

namespace Accessors.Decimal

/-- `digits · 10 ^ exponent`. -/
structure Scaled where
  digits : Nat
  exponent : Int
  deriving DecidableEq, Repr, Inhabited

/-- A fraction of natural numbers. -/
structure Ratio where
  num : Nat
  den : Nat

/-- `n · 2 ^ power`. -/
def Ratio.scaled (n : Nat) (power : Int) : Ratio :=
  if 0 ≤ power then ⟨n * Nat.pow 2 power.toNat, 1⟩ else ⟨n, Nat.pow 2 (-power).toNat⟩

/-- The numbers that read back as a double, with the double itself. -/
structure Interval where
  low : Ratio
  value : Ratio
  high : Ratio
  closed : Bool

/-- The interval of `m · 2 ^ q`. Below a power of two the neighbour is half as far away, unless the spacing is
the smallest there is. -/
def Interval.ofParts (m : Nat) (q : Int) : Interval :=
  let below := if m = Nat.pow 2 52 ∧ -1074 < q then 1 else 2
  ⟨.scaled (4 * m - below) (q - 2), .scaled (4 * m) (q - 2), .scaled (4 * m + 2) (q - 2), m % 2 = 0⟩

/-- Compares `n · 10 ^ power` with a fraction, as the two sides of a comparison of natural numbers. -/
def sides (n : Nat) (power : Int) (r : Ratio) : Nat × Nat :=
  if 0 ≤ power then (n * Nat.pow 10 power.toNat * r.den, r.num)
  else (n * r.den, r.num * Nat.pow 10 (-power).toNat)

def Interval.contains (i : Interval) (n : Nat) (power : Int) : Bool :=
  let (below, low) := sides n power i.low
  let (above, high) := sides n power i.high
  if i.closed then low ≤ below && above ≤ high else low < below && above < high

/-- How often a fraction below one is multiplied by ten until it is at least one. -/
def leadingZeros (r : Ratio) : Nat → Nat → Nat
  | 0, found => found
  | rounds + 1, found =>
      if r.den ≤ r.num * Nat.pow 10 found then found else leadingZeros r rounds (found + 1)

/-- The power of ten of the first digit. -/
def magnitude (r : Ratio) : Int :=
  if r.den ≤ r.num then ((toString (r.num / r.den)).length : Int) - 1
  else -(leadingZeros r 400 1 : Int)

/-- A decimal that may have been rounded up to one more digit, which is then a zero. -/
def rounded (count floor : Nat) (power : Int) : Scaled :=
  if floor = Nat.pow 10 count then ⟨Nat.pow 10 (count - 1), power + 1⟩ else ⟨floor, power⟩

/-- The decimal with so many digits that reads back, if there is one; of two the nearer. -/
def ofLength? (i : Interval) (count : Nat) : Option Scaled :=
  let power : Int := magnitude i.value - count + 1
  let floor :=
    if 0 ≤ power then i.value.num / (i.value.den * Nat.pow 10 power.toNat)
    else i.value.num * Nat.pow 10 (-power).toNat / i.value.den
  let (twice, doubled) := sides (2 * floor + 1) power ⟨2 * i.value.num, i.value.den⟩
  match i.contains floor power, i.contains (floor + 1) power with
  | true, true => some (rounded count (if twice < doubled then floor + 1 else floor) power)
  | true, false => some ⟨floor, power⟩
  | false, true => some (rounded count (floor + 1) power)
  | false, false => none

/-- The shortest decimal of `m · 2 ^ q`; seventeen digits are always enough. -/
def ofParts (m : Nat) (q : Int) : Scaled :=
  if m = 0 then ⟨0, 0⟩
  else
    ((List.range 17).findSome? fun n => ofLength? (Interval.ofParts m q) (n + 1)).getD ⟨0, 0⟩

/-- The parts `m` and `q` of the magnitude of a finite double. -/
def parts (x : Float) : Nat × Int :=
  let bits : Nat := x.toBits.toNat
  let field : Nat := bits / Nat.pow 2 52 % Nat.pow 2 11
  let mantissa : Nat := bits % Nat.pow 2 52
  if field = 0 then (mantissa, -1074) else (mantissa + Nat.pow 2 52, (field : Int) - 1075)

def isNegative (x : Float) : Bool := Nat.pow 2 63 ≤ x.toBits.toNat

def ofFloat (x : Float) : Scaled :=
  let (m, q) := parts x
  ofParts m q

end Accessors.Decimal
