import Accessors.Text.Reader
import Accessors.Toml.Basic
import Accessors.Toml.Text

/-!
Numbers of TOML documents. Underscores stand between digits only. An integer fits 64 bits with a sign. A
number with a fraction or an exponent is refused if its nearest double would be infinite above.
-/

namespace Accessors.Toml.Grammar

open Accessors.Text

/-- Digits of a class with single underscores between them. -/
def digits (p : Char → Bool) : Reader (List Char) := do
  let first ← Reader.takeIf p
  let more ← Reader.collect do
    if ← Reader.word? ['_'] then return some (← Reader.takeIf p)
    else Reader.attempt (Reader.takeIf p)
  return first :: more

def valueOf (radix : Nat) (digits : List Char) : Nat :=
  digits.foldl (fun n c => n * radix + hexValue c) 0

/-- A sign; true for a minus sign. -/
def sign : Reader Bool := do
  if ← Reader.word? ['-'] then return true
  let _ ← Reader.word? ['+']
  return false

/-- Decimal digits without leading zeros. -/
def wholePart : Reader (List Char) := do
  if ← Reader.word? ['0'] then return ['0'] else digits Char.isDigit

def smallestInteger : Int := -Int.pow 2 63

def largestInteger : Int := Int.pow 2 63 - 1

/-- An integer that fits. -/
def fitting (value : Int) : Reader Toml :=
  if smallestInteger ≤ value ∧ value ≤ largestInteger then return .integer value else Reader.refuse

def integer : Reader Toml := do
  if ← Reader.word? ['0', 'x'] then fitting (valueOf 16 (← digits isHex))
  else if ← Reader.word? ['0', 'o'] then fitting (valueOf 8 (← digits fun c => '0' ≤ c && c ≤ '7'))
  else if ← Reader.word? ['0', 'b'] then fitting (valueOf 2 (← digits fun c => c == '0' || c == '1'))
  else
    let negative ← sign
    let value := valueOf 10 (← wholePart)
    fitting (if negative then -value else value)

/-- Half a unit above the largest double, where the nearest double is infinite. -/
def overflowBound : Nat := Nat.pow 2 1024 - Nat.pow 2 970

/-- Whether the nearest double of `mantissa · 10 ^ exponent` is infinite. -/
def overflows (mantissa : Nat) (exponent : Int) : Bool :=
  let size : Int := (toString mantissa).length + exponent
  if mantissa = 0 ∨ size < 300 then false
  else if 320 < size then true
  else if 0 ≤ exponent then overflowBound ≤ mantissa * Nat.pow 10 exponent.toNat
  else overflowBound * Nat.pow 10 (-exponent).toNat ≤ mantissa

/-- An exponent: its letter, its sign and its digits. -/
def exponent : Reader Int := do
  let _ ← Reader.takeIf fun c => c == 'e' || c == 'E'
  let negative ← sign
  let value := valueOf 10 (← digits Char.isDigit)
  return if negative then -value else value

/-- A number with a fraction or an exponent. -/
def finiteFloat : Reader Unit := do
  let negative ← sign
  let whole ← wholePart
  let fraction ← if ← Reader.word? ['.'] then some <$> digits Char.isDigit else pure none
  let power ← Reader.attempt exponent
  if fraction.isNone && power.isNone then Reader.refuse
  let places := fraction.getD []
  if !negative && overflows (valueOf 10 (whole ++ places)) (power.getD 0 - places.length) then
    Reader.refuse

def specialFloat : Reader Unit := do
  let _ ← sign
  if !(← Reader.word? ['i', 'n', 'f']) then Reader.word ['n', 'a', 'n']

def float : Reader Toml := do
  return .float (String.ofList (← Reader.spelling (Reader.orElse finiteFloat specialFloat)))

end Accessors.Toml.Grammar
