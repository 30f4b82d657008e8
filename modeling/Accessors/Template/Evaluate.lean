import Accessors.Template.Scope

/-!
The values of expressions. A condition is evaluated apart from a value: an undefined variable does not hold, and
elsewhere it is a fault unless a default or a negation stands in for it.

What a macro call comes to is handed in, since it leads to another tree.
-/

namespace Accessors.Template

/-- Arguments, which are computed when they are asked for. -/
abbrev DelayedArgs := List (String × RenderM Value)

/-- What leads to another tree: a macro of a library with its arguments. -/
abbrev MacroCalls := (library name : String) → DelayedArgs → RenderM String

/-- A part of joined text. -/
def joinedText (name : String) : Value → RenderM String
  | .string text => pure text
  | .number n => pure n.joinedText
  | _ => throw (.notJoinable name)

def numberOf : Option Value → RenderM (Option Number)
  | some (.number n) => pure (some n)
  | _ => throw .notANumber

def compareNumbers (op : Comparison) (l r : Number) : Bool :=
  match op with
  | .less => l.toFloat < r.toFloat
  | .lessEq => l.toFloat ≤ r.toFloat
  | .greater => r.toFloat < l.toFloat
  | .greaterEq => r.toFloat ≤ l.toFloat
  | .equal => l.toFloat == r.toFloat
  | .unequal => l.toFloat != r.toFloat

/-- Whether a container holds a value. -/
def contains (element : Value) : Value → RenderM Bool
  | .array elements => pure (elements.contains element)
  | .string text =>
      match element with
      | .string part => pure (Text.occurs part.toList text.toList)
      | _ => throw .notSearchable
  | .object entries =>
      match element with
      | .string key => pure (entries.lookup key).isSome
      | _ => throw .notSearchable
  | _ => throw .notSearchable

/-- Whether the first filter stands in for a value that is missing. -/
def hasDefault : List Call → Bool
  | .mk "default" _ :: _ => true
  | _ => false

/-- A variable as an operand: none if a default or a negation stands in for its value. -/
def lookupOperand (env : Env) (negated defaulted : Bool) (path : Variable) : RenderM (Option Value) := do
  match ← currentValue? env path with
  | some .null => return if defaulted then none else some .null
  | some value => return some value
  | none => if defaulted || negated then return none else throw (.undefined path.base)

/-- False where the value cannot be found. -/
def orFalse (value : RenderM Bool) : RenderM Bool := fun s =>
  match value s with
  | .ok found => .ok found
  | .error _ => .ok (false, s)

/-- A calculation; there is no result where a side has none. -/
def mathOn (op : MathOp) (left right : RenderM (Option Number)) : RenderM (Option Number) := do
  let l ← left
  match l, ← right with
  | some l, some r => fromExcept (applyMath op l r)
  | _, _ => return none

/-- A comparison, of numbers unless it asks for equality. -/
def comparisonOn (op : Comparison) (left right : RenderM Value)
    (leftNumber rightNumber : RenderM (Option Number)) : RenderM Bool := do
  match op with
  | .equal =>
      let l ← left
      return equalValues false l (← right)
  | .unequal =>
      let l ← left
      return equalValues true l (← right)
  | op =>
      let l ← leftNumber
      match l, ← rightNumber with
      | some l, some r => return compareNumbers op l r
      | _, _ => throw .notANumber

/-- The first argument with a name, or none. -/
def namedArg? (wanted : String) : DelayedArgs → RenderM (Option Value)
  | [] => return none
  | (name, value) :: rest => if name = wanted then some <$> value else namedArg? wanted rest

def computeArgs : DelayedArgs → RenderM Args
  | [] => return []
  | (name, value) :: rest => do
      let value ← value
      return (name, value) :: (← computeArgs rest)

/-- What a filter makes of a value. A default does nothing to a value that is there. -/
def filterValue (name : String) (args : DelayedArgs) (value : Value) : RenderM Value := do
  if name = "default" ∨ name = "safe" then return value
  else fromExcept (applyFilter name (← computeArgs args) value)

/-- The value of an operand, or what a default puts in its place. -/
def orDefault (callee : String) (args : DelayedArgs) (found : Option Value) : RenderM Value := do
  match found with
  | some value => return value
  | none =>
      match ← namedArg? "value" args with
      | some value => return value
      | none => throw (.missingArgument callee "value")

/-- The number that was calculated, as a value. -/
def mathValue : Option Number → Value
  | some n => .number n
  | none => .string "NaN"

mutual

/-- The value of an expression. A negated variable that is undefined is true. -/
def evaluate (env : Env) (calls : MacroCalls) : Expr → RenderM Value
  | .mk operand negated filters => do
      let found ← evaluateOperand env calls negated (hasDefault filters) operand
      if found.isNone ∧ ¬ hasDefault filters then return .boolean true
      let value ← evaluateFilters env calls filters (← evaluateDefault env calls filters found)
      return if negated then .boolean (!value.isTruthy) else value

/-- The value of an operand; none for a variable that a default or a negation stands in for. -/
def evaluateOperand (env : Env) (calls : MacroCalls) (negated defaulted : Bool) :
    Operand → RenderM (Option Value)
  | .string text => return some (.string text)
  | .integer value => return some (.ofInt value)
  | .float value => return some (.number (.float value))
  | .boolean value => return some (.boolean value)
  | .lookup path => lookupOperand env negated defaulted path
  | .joined parts => do return some (.string (← joinParts env calls parts))
  | .array elements => do return some (.array (← evaluateList env calls elements))
  | .call (.mk name args) => do
      return some (← fromExcept (applyFunction name (← computeArgs (delayArgs env calls args))))
  | .macroCall library (.mk name args) => do
      return some (.string (← calls library name (delayArgs env calls args)))
  | .test subject inverted name args => do
      let args ← evaluateList env calls args
      let passed ← fromExcept (applyTest name args (← currentValue? env subject))
      return some (.boolean (passed != inverted))
  | .math op left right => do
      return some (mathValue (← mathOn op (evaluateNumber env calls left) (evaluateNumber env calls right)))
  | .compare op left right => do
      let holds ← comparisonOn op (evaluate env calls left) (evaluate env calls right)
        (evaluateNumber env calls left) (evaluateNumber env calls right)
      return some (.boolean (holds != negated))
  | .and left right => do
      if ← holds env calls left then return some (.boolean ((← holds env calls right) != negated))
      else return some (.boolean negated)
  | .or left right => do
      if ← holds env calls left then return some (.boolean (!negated))
      else return some (.boolean ((← holds env calls right) != negated))
  | .contained inverted element container => do
      let element ← evaluate env calls element
      return some (.boolean ((← contains element (← evaluate env calls container)) != inverted))

/-- Whether an expression holds as a condition. -/
def holds (env : Env) (calls : MacroCalls) : Expr → RenderM Bool
  | .mk operand negated filters => do
      let positive ← holdsOperand env calls negated (hasDefault filters) (evaluateFilters env calls filters)
        (evaluateDefault env calls filters) operand
      return positive != negated

/-- Whether an operand holds, before its negation. Filters count for a variable only. -/
def holdsOperand (env : Env) (calls : MacroCalls) (negated defaulted : Bool) (filter : Value → RenderM Value)
    (default : Option Value → RenderM Value) : Operand → RenderM Bool
  | .lookup path => orFalse do
      match ← lookupOperand env negated defaulted path with
      | some value => return (← filter value).isTruthy
      | none => if defaulted then return (← filter (← default none)).isTruthy else return false
  | .integer value => return value != 0
  | .float value => return value != 0
  | .string text => return !text.isEmpty
  | .boolean value => return value
  | .math op left right => do
      match ← mathOn op (evaluateNumber env calls left) (evaluateNumber env calls right) with
      | some n => return n.toFloat != 0
      | none => return false
  | .call (.mk name args) => do
      match ← fromExcept (applyFunction name (← computeArgs (delayArgs env calls args))) with
      | .boolean value => return value
      | _ => throw (.badInput name)
  | .macroCall library (.mk name args) => do
      return !(← calls library name (delayArgs env calls args)).isEmpty
  | .joined parts => do return !(← joinParts env calls parts).isEmpty
  | .compare op left right =>
      comparisonOn op (evaluate env calls left) (evaluate env calls right)
        (evaluateNumber env calls left) (evaluateNumber env calls right)
  | .and left right => do
      if ← holds env calls left then holds env calls right else return false
  | .or left right => do
      if ← holds env calls left then return true else holds env calls right
  | .test subject inverted name args => do
      let args ← evaluateList env calls args
      let passed ← fromExcept (applyTest name args (← currentValue? env subject))
      return passed != inverted
  | .contained inverted element container => do
      let element ← evaluate env calls element
      return (← contains element (← evaluate env calls container)) != inverted
  | .array elements => do return !(← evaluateList env calls elements).isEmpty

/-- The number an expression stands for; none where a calculation has no result. -/
def evaluateNumber (env : Env) (calls : MacroCalls) : Expr → RenderM (Option Number)
  | .mk operand _ [] => evaluateNumberOperand env calls operand
  | .mk operand negated (filter :: more) => do
      let found ← evaluateOperand env calls negated (hasDefault (filter :: more)) operand
      if found.isNone ∧ ¬ hasDefault (filter :: more) then throw .notANumber
      let value ← evaluateFilters env calls (filter :: more)
        (← evaluateDefault env calls (filter :: more) found)
      numberOf (some value)

def evaluateNumberOperand (env : Env) (calls : MacroCalls) : Operand → RenderM (Option Number)
  | .math op left right => mathOn op (evaluateNumber env calls left) (evaluateNumber env calls right)
  | .integer value => return some (.integer value)
  | .float value => return some (.float value)
  | .lookup path => do numberOf (← lookupOperand env false false path)
  | .string _ => numberOf none
  | .boolean _ => numberOf none
  | .joined _ => numberOf none
  | .array _ => numberOf none
  | .call (.mk name args) => do
      numberOf (some (← fromExcept (applyFunction name (← computeArgs (delayArgs env calls args)))))
  | .macroCall _ _ => numberOf none
  | .test _ _ _ _ => numberOf none
  | .compare _ _ _ => numberOf none
  | .and _ _ => numberOf none
  | .or _ _ => numberOf none
  | .contained _ _ _ => numberOf none

/-- The value that was found, or what the first filter puts in its place. -/
def evaluateDefault (env : Env) (calls : MacroCalls) : List Call → Option Value → RenderM Value
  | .mk name args :: _, found => orDefault name (delayArgs env calls args) found
  | [], found => orDefault "default" [] found

/-- What filters make of a value. -/
def evaluateFilters (env : Env) (calls : MacroCalls) : List Call → Value → RenderM Value
  | [], value => return value
  | .mk name args :: rest, value => do
      evaluateFilters env calls rest (← filterValue name (delayArgs env calls args) value)

def delayArgs (env : Env) (calls : MacroCalls) : List (String × Expr) → DelayedArgs
  | [] => []
  | (name, expr) :: rest => (name, evaluate env calls expr) :: delayArgs env calls rest

def evaluateList (env : Env) (calls : MacroCalls) : List Expr → RenderM (List Value)
  | [] => return []
  | expr :: rest => do
      let value ← evaluate env calls expr
      return value :: (← evaluateList env calls rest)

/-- Joined text. -/
def joinParts (env : Env) (calls : MacroCalls) : List Operand → RenderM String
  | [] => return ""
  | part :: rest => do
      let text ← joinPart env calls part
      return text ++ (← joinParts env calls rest)

def joinPart (env : Env) (calls : MacroCalls) : Operand → RenderM String
  | .integer value => return toString value
  | .float value => return Decimal.positionalText value
  | .string text => return text
  | .lookup path => do
      match ← lookupOperand env false false path with
      | some value => joinedText path.base value
      | none => throw (.undefined path.base)
  | .call (.mk name args) => do
      joinedText name (← fromExcept (applyFunction name (← computeArgs (delayArgs env calls args))))
  | _ => throw (.notJoinable "")

end

end Accessors.Template
