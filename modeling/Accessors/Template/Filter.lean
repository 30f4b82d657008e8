import Accessors.Template.Node
import Accessors.Text.Blank
import Accessors.Text.Lowercase
import Accessors.Text.Uppercase

/-!
The filters, tests and functions of templates, and why an expression has no value.
-/

namespace Accessors.Template

inductive RenderFault where
  | notAnObject
  | undefined (name : String)
  | unknownFilter (name : String)
  | unknownTest (name : String)
  | unknownFunction (name : String)
  | unknownMacro (library name : String)
  | missingTemplate (names : List String)
  | missingArgument (callee name : String)
  | badInput (callee : String)
  | notANumber
  | outOfBounds
  | notIterable
  | notJoinable (name : String)
  | notSearchable
  | inheritedInsertion (file : String)
  | noParentBlock
  | tooDeep
  deriving DecidableEq, Repr, Inhabited

def RenderFault.message : RenderFault → String
  | .notAnObject => "the context is not an object"
  | .undefined name => "variable `" ++ name ++ "` not found in context"
  | .unknownFilter name => "filter '" ++ name ++ "' not found"
  | .unknownTest name => "test '" ++ name ++ "' not found"
  | .unknownFunction name => "function '" ++ name ++ "' not found"
  | .unknownMacro library name => "macro `" ++ library ++ "::" ++ name ++ "` not found"
  | .missingTemplate names => "template [" ++ Text.join ", " names ++ "] not found"
  | .missingArgument callee name => "`" ++ callee ++ "` is missing the argument `" ++ name ++ "`"
  | .badInput callee => "`" ++ callee ++ "` was called on an incorrect value"
  | .notANumber => "a value in a calculation is not a number"
  | .outOfBounds => "a calculation is out of bounds"
  | .notIterable => "a loop runs over something that is no list"
  | .notJoinable name => "`" ++ name ++ "` is joined but neither text nor a number"
  | .notSearchable => "`in` is used on something that contains nothing"
  | .inheritedInsertion file => "an included template has the parent `" ++ file ++ "`"
  | .noParentBlock => "super() is used in a block without a parent block"
  | .tooDeep => "templates are nested too deeply"

abbrev Args := List (String × Value)

/-- A text with every occurrence of a pattern replaced. An empty pattern occurs between any two characters. -/
def replaceText (pattern image text : String) : String :=
  if pattern.isEmpty then
    String.ofList (image.toList ++ text.toList.flatMap fun c => c :: image.toList)
  else String.ofList (Text.replaceAll pattern.toList image.toList text.toList)

/-- The parts of a text between the occurrences of a pattern. -/
def splitText (pattern text : String) : List String := text.splitOn pattern

/-- A filter on text. -/
def onText (name : String) (f : String → Value) : Value → Except RenderFault Value
  | .string text => .ok (f text)
  | _ => .error (.badInput name)

/-- An argument that has to be text. -/
def textArg (callee : String) (args : Args) (name : String) : Except RenderFault String :=
  match args.lookup name with
  | some (.string text) => .ok text
  | some _ => .error (.badInput callee)
  | none => .error (.missingArgument callee name)

/-- The first letter in upper case and the rest in lower case. -/
def capitalize (text : String) : String :=
  match text.toList with
  | [] => ""
  | c :: rest => String.ofList (Text.upperChar c) ++ Text.lower (String.ofList rest)

/-- What a filter makes of a value. -/
def applyFilter (name : String) (args : Args) (value : Value) : Except RenderFault Value :=
  match name with
  | "upper" => onText name (fun text => .string (Text.upper text)) value
  | "lower" => onText name (fun text => .string (Text.lower text)) value
  | "trim" => onText name (fun text => .string (Text.trim text)) value
  | "trim_start" =>
      onText name (fun text => .string (String.ofList (text.toList.dropWhile Text.isBlank))) value
  | "trim_end" => onText name (fun text => .string (Text.trimEnd text)) value
  | "capitalize" => onText name (fun text => .string (capitalize text)) value
  | "replace" => do
      let text ← onText name Value.string value
      let pattern ← textArg name args "from"
      let image ← textArg name args "to"
      onText name (fun text => .string (replaceText pattern image text)) text
  | "split" => do
      let text ← onText name Value.string value
      let pattern ← textArg name args "pat"
      onText name (fun text => .array ((splitText pattern text).map .string)) text
  | "length" =>
      match value with
      | .string text => .ok (.ofNat text.length)
      | .array elements => .ok (.ofNat elements.length)
      | .object entries => .ok (.ofNat entries.length)
      | _ => .error (.badInput name)
  | "reverse" =>
      match value with
      | .string text => .ok (.string (String.ofList text.toList.reverse))
      | .array elements => .ok (.array elements.reverse)
      | _ => .error (.badInput name)
  | "first" =>
      match value with
      | .array elements => .ok (elements.head?.getD (.string ""))
      | _ => .error (.badInput name)
  | "last" =>
      match value with
      | .array elements => .ok (elements.getLast?.getD (.string ""))
      | _ => .error (.badInput name)
  | "join" =>
      match value, args.lookup "sep" with
      | .array elements, none => .ok (.string (Text.join "" (Value.texts elements)))
      | .array elements, some (.string separator) =>
          .ok (.string (Text.join separator (Value.texts elements)))
      | _, _ => .error (.badInput name)
  | "as_str" => .ok (.string value.text)
  | _ => .error (.unknownFilter name)

def isOdd (callee : String) : Option Value → Except RenderFault Bool
  | some (.number (.integer value)) => .ok (value % 2 != 0)
  | _ => .error (.badInput callee)

/-- A test on a text with a text as its argument. -/
def onTexts (callee : String) (value : Option Value) (args : List Value)
    (f : List Char → List Char → Bool) : Except RenderFault Bool :=
  match value, args with
  | some (.string text), [.string part] => .ok (f part.toList text.toList)
  | _, _ => .error (.badInput callee)

/-- Whether a variable, which may be undefined, passes a test. -/
def applyTest (name : String) (args : List Value) (value : Option Value) : Except RenderFault Bool :=
  match name with
  | "defined" => .ok value.isSome
  | "undefined" => .ok value.isNone
  | "string" => .ok (value matches some (.string _))
  | "number" => .ok (value matches some (.number _))
  | "object" => .ok (value matches some (.object _))
  | "iterable" => .ok ((value matches some (.array _)) || (value matches some (.object _)))
  | "odd" => isOdd name value
  | "even" => do return !(← isOdd name value)
  | "starting_with" => onTexts name value args List.isPrefixOf
  | "ending_with" => onTexts name value args List.isSuffixOf
  | "containing" =>
      match value, args with
      | some (.string text), [.string part] => .ok (Text.occurs part.toList text.toList)
      | some (.array elements), [element] => .ok (elements.contains element)
      | some (.object entries), [.string key] => .ok (entries.lookup key).isSome
      | _, _ => .error (.badInput name)
  | _ => .error (.unknownTest name)

/-- An argument that has to be an integer and at least zero. -/
def countArg (callee : String) (args : Args) (name : String) (default : Option Nat) :
    Except RenderFault Nat :=
  match args.lookup name, default with
  | some (.number (.integer value)), _ => if 0 ≤ value then .ok value.toNat else .error (.badInput callee)
  | some _, _ => .error (.badInput callee)
  | none, some n => .ok n
  | none, none => .error (.missingArgument callee name)

/-- What a function makes of its arguments. -/
def applyFunction (name : String) (args : Args) : Except RenderFault Value :=
  match name with
  | "range" => do
      let start ← countArg name args "start" (some 0)
      let step ← countArg name args "step_by" (some 1)
      let finish ← countArg name args "end" none
      if finish < start ∨ step = 0 then .error (.badInput name)
      else
        let count := (finish - start + step - 1) / step
        .ok (.array ((List.range count).map fun i => .ofNat (start + i * step)))
  | _ => .error (.unknownFunction name)

/-! Arithmetic. -/

def fitsSigned (value : Int) : Bool := -Int.pow 2 63 ≤ value && value < Int.pow 2 63

def fitsUnsigned (value : Int) : Bool := 0 ≤ value && value < Int.pow 2 64

/-- A number, unless it is infinite or none. -/
def finite? (value : Float) : Option Number :=
  if value.isNaN || value.isInf then none else some (.float value)

/-- The result of an operation on integers of 64 bits, or on their doubles if they do not fit. -/
def onIntegers (l r : Number) (exact : Int → Int → Int) (rounded : Float → Float → Float) :
    Except RenderFault (Option Number) :=
  match l, r with
  | .integer a, .integer b =>
      let result := exact a b
      if fitsSigned a && fitsSigned b then
        if fitsSigned result then .ok (some (.integer result)) else .error .outOfBounds
      else if fitsUnsigned a && fitsUnsigned b then
        if fitsUnsigned result then .ok (some (.integer result)) else .error .outOfBounds
      else .ok (finite? (rounded l.toFloat r.toFloat))
  | _, _ => .ok (finite? (rounded l.toFloat r.toFloat))

/-- The remainder of doubles, with the sign of the first. -/
def floatRemainder (a b : Float) : Float :=
  let quotient := a / b
  a - b * (if quotient < 0 then quotient.ceil else quotient.floor)

/-- A quotient: an integer where it is one. -/
def quotient (l r : Number) : Option Number :=
  let value := l.toFloat / r.toFloat
  if value.isNaN || value.isInf then none
  else if value.round == value then some (.integer value.toInt64.toInt)
  else some (.float value)

/-- The result of an operation; none where it is no number. -/
def applyMath (op : MathOp) (l r : Number) : Except RenderFault (Option Number) :=
  match op with
  | .add => onIntegers l r (· + ·) (· + ·)
  | .subtract => onIntegers l r (· - ·) (· - ·)
  | .multiply => onIntegers l r (· * ·) (· * ·)
  | .divide => .ok (quotient l r)
  | .remainder =>
      match r with
      | .integer 0 => .error .outOfBounds
      | _ => onIntegers l r Int.tmod floatRemainder

/-- Whether two values are equal. Numbers are compared as doubles, and a number differs from all else, which
then is neither equal nor unequal to it. -/
def equalValues (unequal : Bool) (l r : Value) : Bool :=
  match l, r with
  | .number a, .number b => (a.toFloat == b.toFloat) != unequal
  | .number _, _ => false
  | _, .number _ => false
  | _, _ => (l == r) != unequal

end Accessors.Template
