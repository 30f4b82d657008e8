import Accessors.Template.Node
import Accessors.Text.Reader

/-!
The grammar of expressions in templates. It is read by ordered choice: the first alternative that fits is
taken, and words are not told from the beginnings of longer words unless a rule says so.
-/

namespace Accessors.Template.Grammar

open Accessors.Text

/-- The rules that nest. -/
structure Rules where
  /-- An expression with `and`, `or` and parentheses. -/
  logic : Reader Expr
  /-- An element of a list: an expression without `and` and `or` outside parentheses. -/
  element : Reader Expr
  /-- Arithmetic in parentheses. -/
  arithmetic : Reader Operand
  /-- A variable inside square brackets. -/
  variablePath : Reader Variable

def isSpace (c : Char) : Bool := c == ' ' || c == '\t' || c == '\r' || c == '\n'

def space : Reader Unit := do
  let _ ← Reader.takeWhile isSpace

/-- The given characters after white space. -/
def sign (chars : List Char) : Reader Unit := do
  space
  Reader.word chars

/-- Takes the given characters after white space if they stand here. -/
def sign? (chars : List Char) : Reader Bool := do
  return (← Reader.attempt (sign chars)).isSome

def keyword (w : String) : Reader Unit := sign w.toList

/-- A word that white space must follow. -/
def spacedWord (w : String) : Reader Unit := do
  keyword w
  let _ ← Reader.takeIf isSpace

/-- The first reader of a list that does not refuse. -/
def choice {α : Type} (readers : List (Reader α)) : Reader α :=
  readers.foldr Reader.orElse Reader.refuse

/-- As many of something as there are. -/
def many {α : Type} (p : Reader α) : Reader (List α) :=
  Reader.collect (Reader.attempt p)

/-- A list with commas between its elements. -/
def commaSeparated {α : Type} (p : Reader α) : Reader (List α) := do
  let first ← p
  return first :: (← many do
    sign [',']
    p)

/-! Names and literals. -/

def isNameStart (c : Char) : Bool := c.isAlpha || c == '_'

def isNameChar (c : Char) : Bool := c.isAlphanum || c == '_'

/-- A name without white space before it. -/
def bareName : Reader String := do
  let first ← Reader.takeIf isNameStart
  return String.ofList (first :: (← Reader.takeWhile isNameChar))

def name : Reader String := do
  space
  bareName

/-- Text in quotes of one of three kinds; nothing is escaped in it. -/
def quoted : Reader String := do
  space
  let quote ← Reader.takeIf fun c => c == '"' || c == Char.ofNat 39 || c == Char.ofNat 96
  let text ← Reader.takeWhile (· != quote)
  Reader.word [quote]
  return String.ofList text

def digitsValue (digits : List Char) : Nat :=
  digits.foldl (fun n c => n * 10 + (c.toNat - '0'.toNat)) 0

/-- Decimal digits without leading zeros. -/
def wholeDigits : Reader (List Char) := do
  if ← Reader.word? ['0'] then return ['0']
  let first ← Reader.takeIf fun c => '1' ≤ c && c ≤ '9'
  return first :: (← Reader.takeWhile Char.isDigit)

/-- An integer without white space before it. -/
def bareInteger : Reader Int := do
  let negative ← Reader.word? ['-']
  let value : Int := digitsValue (← wholeDigits)
  return if negative then -value else value

/-- An integer that fits 64 bits with a sign. -/
def integer : Reader Operand := do
  space
  let value ← bareInteger
  if -Int.pow 2 63 ≤ value ∧ value < Int.pow 2 63 then return .integer value else Reader.refuse

def float : Reader Operand := do
  space
  let negative ← Reader.word? ['-']
  let whole ← wholeDigits
  Reader.word ['.']
  let first ← Reader.takeIf Char.isDigit
  let places := first :: (← Reader.takeWhile Char.isDigit)
  let value := Float.ofScientific (digitsValue (whole ++ places)) true places.length
  return .float (if negative then -value else value)

def boolean : Reader Operand := do
  space
  if ← Reader.word? ['t', 'r', 'u', 'e'] then return .boolean true
  else if ← Reader.word? ['T', 'r', 'u', 'e'] then return .boolean true
  else if ← Reader.word? ['f', 'a', 'l', 's', 'e'] then return .boolean false
  else
    Reader.word ['F', 'a', 'l', 's', 'e']
    return .boolean false

/-- What may stand in square brackets. -/
def bracketed (r : Rules) (owner : Variable) : Reader Variable :=
  choice [
    do return .key owner (toString (← bareInteger)),
    do
      let quote ← Reader.takeIf fun c => c == '"' || c == Char.ofNat 39 || c == Char.ofNat 96
      let text ← Reader.takeWhile (· != quote)
      Reader.word [quote]
      return .key owner (String.ofList text),
    do return .computed owner (← r.variablePath)]

/-- A name with keys, without white space before it. -/
def bareVariable (r : Rules) : Reader Variable := do
  let first ← bareName
  Reader.iterate (fun owner => Reader.attempt (choice [
    do
      Reader.word ['.']
      let key ← Reader.takeWhile isNameChar
      if key.isEmpty then Reader.refuse
      return Variable.key owner (String.ofList key),
    do
      Reader.word ['[']
      let inner ← bracketed r owner
      Reader.word [']']
      return inner])) (Variable.name first)

def variablePath (r : Rules) : Reader Variable := do
  space
  bareVariable r

/-! Calls and filters. -/

/-- A list of values in square brackets. -/
def array (r : Rules) : Reader Operand := do
  sign ['[']
  let elements ← Reader.attempt (commaSeparated r.element)
  let _ ← sign? [',']
  sign [']']
  return .array (elements.getD [])

/-- The arguments in the parentheses of a call. Of two with one name the last counts. -/
def arguments (argument : Reader Expr) : Reader (List (String × Expr)) := do
  sign ['(']
  let args ← Reader.attempt do
    let args ← commaSeparated do
      let name ← name
      sign ['=']
      return (name, ← argument)
    let _ ← sign? [',']
    return args
  sign [')']
  return (args.getD []).reverse

/-- A call of a function. -/
def callWith (argument : Reader Expr) : Reader Call := do
  let name ← name
  return .mk name (← arguments argument)

def filterWith (argument : Reader Expr) : Reader Call := do
  sign ['|']
  Reader.orElse (callWith argument) do return .mk (← name) []

/-- A list with filters after it, whose arguments are read by the given reader. -/
def filteredArray (r : Rules) (argument : Reader Expr) : Reader Expr := do
  let array ← array r
  return .mk array false (← many (filterWith argument))

/-- What an argument may be, and what may be assigned or shown. A list inside the arguments of a filter of a
list is not looked for. -/
def argument (r : Rules) : Reader Expr :=
  Reader.orElse r.logic (filteredArray r (Reader.orElse r.logic (filteredArray r r.logic)))

def call (r : Rules) : Reader Call := callWith (argument r)

def filter (r : Rules) : Reader Call := filterWith (argument r)

/-! Operands. -/

/-- The name of a test with its arguments. -/
def testTail (r : Rules) : Reader (String × List Expr) := do
  let name ← name
  let args ← Reader.attempt do
    sign ['(']
    let args ← commaSeparated (argument r)
    sign [')']
    return args
  return (name, args.getD [])

def test (r : Rules) (negated : Bool) : Reader Operand := do
  let subject ← variablePath r
  keyword "is"
  if negated then keyword "not"
  let (name, args) ← testTail r
  return .test subject negated name args

def macroCall (r : Rules) : Reader Operand := do
  let library ← name
  sign [':', ':']
  return .macroCall library (← call r)

/-- A single value in arithmetic. -/
def basicValue (r : Rules) : Reader Operand :=
  choice [boolean, test r true, test r false, macroCall r,
    do return .call (← call r),
    do return .lookup (← variablePath r),
    float, integer]

def basicOperand (r : Rules) : Reader Operand :=
  Reader.orElse (do
    sign ['(']
    let inner ← r.arithmetic
    sign [')']
    return inner) (basicValue r)

def mathOp : Reader MathOp := do
  space
  match ← Reader.takeIf fun _ => true with
  | '+' => return .add
  | '-' => return .subtract
  | '*' => return .multiply
  | '/' => return .divide
  | '%' => return .remainder
  | _ => Reader.refuse

def MathOp.isProduct : MathOp → Bool
  | .add | .subtract => false
  | _ => true

/-- Puts together operands with the operators between them, products first. The sum so far waits while a
product is put together. -/
def mathTree (pending : Option (MathOp × Expr)) (current : Expr) : List (MathOp × Expr) → Expr
  | [] =>
      match pending with
      | some (op, left) => .plain (.math op left current)
      | none => current
  | (op, next) :: rest =>
      if MathOp.isProduct op then mathTree pending (.plain (.math op current next)) rest
      else
        match pending with
        | some (before, left) => mathTree (some (op, .plain (.math before left current))) next rest
        | none => mathTree (some (op, current)) next rest

def arithmeticOf (r : Rules) : Reader Operand := do
  let first ← basicOperand r
  let more ← many do
    let op ← mathOp
    return (op, Expr.plain (← basicOperand r))
  return (mathTree none (.plain first) more).operand

/-- Arithmetic with filters after it. -/
def filteredArithmetic (r : Rules) : Reader Expr := do
  let operand ← arithmeticOf r
  return .mk operand false (← many (filter r))

/-- A part of joined text. -/
def joinable (r : Rules) : Reader Operand :=
  choice [do return .call (← call r), float, integer, do return .string (← quoted),
    do return .lookup (← variablePath r)]

/-- Text, perhaps joined from parts, with filters after it. -/
def filteredText (r : Rules) : Reader Expr := do
  let operand ← Reader.orElse (do
    let first ← joinable r
    let part : Reader Operand := do
      sign ['~']
      joinable r
    let second ← part
    return .joined (first :: second :: (← many part))) (do return .string (← quoted))
  return .mk operand false (← many (filter r))

/-! Conditions. -/

def comparison : Reader Comparison := do
  space
  if ← Reader.word? ['<', '='] then return .lessEq
  else if ← Reader.word? ['>', '='] then return .greaterEq
  else if ← Reader.word? ['>'] then return .greater
  else if ← Reader.word? ['<'] then return .less
  else if ← Reader.word? ['=', '='] then return .equal
  else
    Reader.word ['!', '=']
    return .unequal

/-- A side of a comparison. -/
def compared (r : Rules) : Reader Expr :=
  Reader.orElse (filteredText r) do
    let first ← filteredArithmetic r
    let more ← many do
      let op ← mathOp
      return (op, ← filteredArithmetic r)
    return mathTree none first more

def comparisonExpr (r : Rules) : Reader Expr := do
  let left ← compared r
  let tail ← Reader.attempt do
    let op ← comparison
    return (op, ← compared r)
  match tail with
  | some (op, right) => return .plain (.compare op left right)
  | none => return left

/-- Whether something is in a container. -/
def containment (r : Rules) : Reader Expr := do
  let element ← Reader.orElse (filteredText r) (filteredArithmetic r)
  let negated := (← Reader.attempt (spacedWord "not")).isSome
  keyword "in"
  let container ← choice [filteredText r, filteredArray r (argument r),
    do return .plain (.lookup (← variablePath r))]
  return .plain (.contained negated element container)

def condition (r : Rules) : Reader Expr := do
  let negated := (← Reader.attempt (spacedWord "not")).isSome
  let inner ← choice [containment r, comparisonExpr r,
    do
      sign ['(']
      let inner ← r.logic
      sign [')']
      return inner]
  match inner with
  | .mk operand before filters => return .mk operand (negated || before) filters

/-- Puts together conditions with the words between them; true stands for `and`, which binds tighter. -/
def logicTree (pending : Option Expr) (current : Expr) : List (Bool × Expr) → Expr
  | [] =>
      match pending with
      | some left => .plain (.or left current)
      | none => current
  | (isAnd, next) :: rest =>
      if isAnd then logicTree pending (.plain (.and current next)) rest
      else
        match pending with
        | some left => logicTree (some (.plain (.or left current))) next rest
        | none => logicTree (some current) next rest

def logicOf (r : Rules) : Reader Expr := do
  let first ← condition r
  let more ← many do
    let isAnd ← Reader.orElse (do spacedWord "or"; return false) (do spacedWord "and"; return true)
    return (isAnd, ← condition r)
  return logicTree none first more

/-- The rules up to a level of nesting. -/
def rules : (levels : Nat) → Rules
  | 0 => ⟨Reader.refuse, Reader.refuse, Reader.refuse, Reader.refuse⟩
  | levels + 1 => {
      logic := fun text => logicOf (rules levels) text
      element := fun text => condition (rules levels) text
      arithmetic := fun text => arithmeticOf (rules levels) text
      variablePath := fun text => bareVariable (rules levels) text }

end Accessors.Template.Grammar
