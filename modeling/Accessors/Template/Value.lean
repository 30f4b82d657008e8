import Accessors.Decimal.Notation
import Accessors.Text.Basic

/-!
Values that templates compute with. Integers and numbers with a fraction are kept apart, and the keys of an
object are in order.
-/

namespace Accessors.Template

inductive Number where
  | integer (value : Int)
  | float (value : Float)
  deriving BEq, Repr, Inhabited

inductive Value where
  | null
  | boolean (value : Bool)
  | number (value : Number)
  | string (text : String)
  | array (elements : List Value)
  | object (entries : List (String × Value))
  deriving BEq, Repr, Inhabited

namespace Number

def toFloat : Number → Float
  | integer value => Float.ofInt value
  | float value => value

/-- A number as a template shows it. -/
def text : Number → String
  | integer value => toString value
  | float value => Decimal.positionalText value

/-- A number as it is joined to text. -/
def joinedText : Number → String
  | integer value => toString value
  | float value => Decimal.compactText value

end Number

namespace Value

def ofInt (value : Int) : Value := .number (.integer value)

def ofNat (value : Nat) : Value := .ofInt value

mutual

/-- A value as a template shows it. -/
def text : Value → String
  | null => ""
  | boolean value => if value then "true" else "false"
  | number value => value.text
  | string text => text
  | array elements => "[" ++ Text.join ", " (texts elements) ++ "]"
  | object _ => "[object]"

def texts : List Value → List String
  | [] => []
  | value :: rest => value.text :: texts rest

end

/-- Whether a condition that is this value holds. -/
def isTruthy : Value → Bool
  | null => false
  | boolean value => value
  | number (.integer value) => value != 0
  | number (.float value) => value != 0 && !value.isNaN
  | string text => !text.isEmpty
  | array elements => !elements.isEmpty
  | object entries => !entries.isEmpty

/-- A position in an array as it is written, without leading zeros. -/
def position? (key : String) : Option Nat :=
  match key.toList with
  | ['0'] => some 0
  | '0' :: _ => none
  | [] => none
  | digits =>
      if digits.all Char.isDigit then some (digits.foldl (fun n c => n * 10 + (c.toNat - '0'.toNat)) 0)
      else none

/-- The value under a key of an object, or at a position of an array. -/
def member? (value : Value) (key : String) : Option Value :=
  match value with
  | object entries => entries.lookup key
  | array elements => (position? key).bind fun i => elements[i]?
  | _ => none

/-- The value at the end of a path of keys. -/
def follow? (value : Value) (keys : List String) : Option Value :=
  keys.foldlM member? value

theorem text_string (s : String) : (string s).text = s := by
  simp [text]

end Value

end Accessors.Template
