import Accessors.Parsing.Patterns
import Accessors.Text.Basic

/-!
The grammar of expressions. An expression is read and not kept; its lexemes are what a type shows of it.
Operators are read by precedence, and what may follow an expression depends on whether it is a range, a
comparison, or something that ends by its own block.
-/

namespace Accessors.Parsing

/-- The operators between two operands, longest first. -/
def binaryOperators : List (List Char × Precedence) := [
  (['+', '='], .assign), (['-', '='], .assign), (['*', '='], .assign), (['/', '='], .assign),
  (['%', '='], .assign), (['^', '='], .assign), (['&', '='], .assign), (['|', '='], .assign),
  (['<', '<', '='], .assign), (['>', '>', '='], .assign), (['&', '&'], .and), (['|', '|'], .or),
  (['<', '<'], .shift), (['>', '>'], .shift), (['=', '='], .compare), (['<', '='], .compare),
  (['!', '='], .compare), (['>', '='], .compare), (['+'], .sum), (['-'], .sum), (['*'], .product),
  (['/'], .product), (['%'], .product), (['^'], .bitXor), (['&'], .bitAnd), (['|'], .bitOr),
  (['<'], .compare), (['>'], .compare)]

/-- The operator ahead with its precedence. -/
def Ahead.binaryOperator (trees : List TokenTree) : Option (List Char × Precedence) :=
  binaryOperators.find? fun (chars, _) => Ahead.op chars trees

def Ahead.assign (trees : List TokenTree) : Bool :=
  Ahead.op ['='] trees && !Ahead.op ['=', '>'] trees

/-- The precedence of whatever continues an expression ahead. -/
def Ahead.precedence (trees : List TokenTree) : Precedence :=
  match Ahead.binaryOperator trees with
  | some (_, p) => p
  | none =>
      if Ahead.assign trees then .assign
      else if Ahead.op ['.', '.'] trees then .range
      else if Ahead.word "as" trees then .cast
      else .jump

/-- A dot that opens a field, a method or an awaited result. -/
def Ahead.dot (trees : List TokenTree) : Bool :=
  Ahead.op ['.'] trees && !Ahead.op ['.', '.'] trees

/-- What ends a range without an upper end. -/
def Ahead.openRange (structs : Bool) (trees : List TokenTree) : Bool :=
  Ahead.atEnd trees || Ahead.op [','] trees || Ahead.op [';'] trees || Ahead.dot trees
    || Ahead.op ['?'] trees || Ahead.op ['=', '>'] trees || (!structs && Ahead.opens .brace trees)
    || Ahead.op ['='] trees || Ahead.op ['+'] trees || Ahead.op ['/'] trees || Ahead.op ['%'] trees
    || Ahead.op ['^'] trees || Ahead.op ['>'] trees || Ahead.op ['<', '='] trees
    || Ahead.op ['!', '='] trees || Ahead.op ['-', '='] trees || Ahead.op ['*', '='] trees
    || Ahead.op ['&', '='] trees || Ahead.op ['|', '='] trees || Ahead.op ['<', '<', '='] trees
    || Ahead.word "as" trees

/-- What may open an expression after a word such as `return`. -/
def Ahead.expr (trees : List TokenTree) : Bool :=
  Ahead.anyIdent trees || Ahead.opensAny trees || Ahead.literal trees
    || (Ahead.op ['!'] trees && !Ahead.op ['!', '='] trees)
    || (Ahead.op ['-'] trees && !Ahead.op ['-', '='] trees && !Ahead.op ['-', '>'] trees)
    || (Ahead.op ['*'] trees && !Ahead.op ['*', '='] trees)
    || (Ahead.op ['|'] trees && !Ahead.op ['|', '='] trees)
    || (Ahead.op ['&'] trees && !Ahead.op ['&', '='] trees)
    || Ahead.op ['.', '.'] trees
    || (Ahead.op ['<'] trees && !Ahead.op ['<', '='] trees && !Ahead.op ['<', '<', '='] trees)
    || Ahead.colons trees || Ahead.lifetime trees || Ahead.op ['#'] trees

/-! Operators. -/

/-- The right operand of an operator with a precedence. -/
def rightOperand (structs : Bool) (p : Precedence) : Parser Unit := do
  let operand ← nested (.unary structs)
  let _ ← iterate (fun operand => do
    let next := Ahead.precedence (← get).rest
    if p.rank < next.rank || (next = p && p = .assign) then
      let before := (← get).rest.length
      let whole ← nested (.operators operand structs next)
      if (← get).rest.length = before then return none else return some whole
    else return none) operand

/-- The sign of a range between expressions. -/
def exprRangeSign : Parser Bool := do
  if ← takeOp? ['.', '.', '='] then return true
  else if ← ahead (Ahead.op ['.', '.', '.']) then fail
  else
    takeOp ['.', '.']
    return false

/-- The sign and upper end of a range between expressions. -/
def exprRangeTail (structs : Bool) : Parser ExprKind := do
  let closed ← exprRangeSign
  if !closed && (← ahead (Ahead.openRange structs)) then return .range
  rightOperand structs .range
  return .range

/-- A cast may not be followed by what would read its type on. -/
def Ahead.afterCast (trees : List TokenTree) : Bool :=
  Ahead.dot trees || Ahead.op ['?'] trees || Ahead.opens .bracket trees || Ahead.opens .paren trees

/-- One operator after an operand, if its precedence allows it. -/
def operatorStep (structs : Bool) (base : Precedence) (operand : ExprKind) :
    Parser (Option ExprKind) := do
  if operand = .range then return none
  let trees := (← get).rest
  match Ahead.binaryOperator trees with
  | some (chars, p) =>
      if p.rank < base.rank then return none
      else if p = .compare && operand = .comparison then fail
      else
        takeOp chars
        rightOperand structs p
        return some (if p = .compare then .comparison else .plain)
  | none =>
      if base.rank ≤ Precedence.assign.rank && Ahead.assign trees then
        takeOp ['=']
        rightOperand structs .assign
        return some .plain
      else if base.rank ≤ Precedence.range.rank && Ahead.op ['.', '.'] trees then
        return some (← exprRangeTail structs)
      else if base.rank ≤ Precedence.cast.rank && Ahead.word "as" trees then
        takeWord "as"
        let _ ← nested (.ty false)
        if ← ahead Ahead.afterCast then fail
        return some .plain
      else return none

def operatorsOf (operand : ExprKind) (structs : Bool) (base : Precedence) : Parser ExprKind :=
  iterate (operatorStep structs base) operand

def exprOf (structs : Bool) : Parser ExprKind := do
  let operand ← nested (.unary structs)
  nested (.operators operand structs .jump)

/-! What follows an operand. -/

/-- The digits of a field's position, without leading zeros. -/
def positionText (digits : List Char) : Literal :=
  .ofNat (digits.foldl (fun n c => n * 10 + (c.toNat - '0'.toNat)) 0)

/-- The digits of a position that fits 32 bits. -/
def position? (digits : List Char) : Option Literal :=
  if !digits.isEmpty && digits.all Char.isDigit
      && digits.foldl (fun n c => n * 10 + (c.toNat - '0'.toNat)) 0 < Nat.pow 2 32 then
    some (positionText digits)
  else none

/-- Two positions written as one number with a point: `x.0.1`. Answers whether a member must still follow,
because the point ends the number. -/
def pointedPositions (text : String) : Parser Bool := do
  match (Text.splitAt '.' text.toList) with
  | [first, []] =>
      match position? first with
      | some a =>
          consume 1 [.literal a, .punct '.' false]
          return true
      | none => fail
  | [first, second] =>
      match position? first, position? second with
      | some a, some b =>
          consume 1 [.literal a, .punct '.' false, .literal b]
          return false
      | _, _ => fail
  | _ => fail

/-- A field's position; answers nothing else. -/
def takePosition : Parser Unit := do
  match (← get).rest with
  | .leaf (.literal name) :: _ =>
      match Literal.isInteger name.text, position? (name.text.toList.filter (· != '_')) with
      | true, some digits => consume 1 [.literal digits]
      | _, _ => fail
  | _ => fail

/-- What follows a dot: a field, a method call or the word `await`. -/
def member : Parser Unit := do
  if ← takeWord? "await" then return ()
  if ← ahead Ahead.ident then
    let _ ← takeIdent
    let turbofish ← ahead Ahead.colons
    if turbofish then
      takeOp [':', ':']
      let _ ← nested .angleArgs
    if turbofish || (← ahead (Ahead.opens .paren)) then
      let _ ← within .paren (commaList (nested (.expr true)))
  else takePosition

/-- One call, field, index or question mark after an operand. -/
def trailerStep (operand : ExprKind) : Parser (Option ExprKind) := do
  if ← ahead (Ahead.opens .paren) then
    let _ ← within .paren (commaList (nested (.expr true)))
    return some .plain
  else if ← ahead fun t => operand != .range && Ahead.dot t then
    takeOp ['.']
    match (← get).rest with
    | .leaf (.literal name) :: _ =>
        if Literal.isNumber name.text && !Literal.isInteger name.text then
          if ← pointedPositions name.text then member
        else member
    | _ => member
    return some .plain
  else if ← ahead (Ahead.opens .bracket) then
    let _ ← within .bracket (nested (.expr true))
    return some .plain
  else if ← ahead fun t => operand != .range && Ahead.op ['?'] t then
    takeOp ['?']
    return some .plain
  else return none

def trailers (operand : ExprKind) : Parser ExprKind :=
  iterate trailerStep operand

/-! Operands. -/

/-- The two rules for a `for` that opens a closure's binder and not a loop. -/
def Ahead.binderAfterFor (trees : List TokenTree) : Bool :=
  let second := Ahead.next trees
  let third := Ahead.next second
  let fourth := Ahead.next third
  Ahead.op ['<'] second
    && (Ahead.op ['>'] third || Ahead.op ['#'] third
      || ((Ahead.lifetime third || Ahead.ident third)
        && (Ahead.op ['>'] fourth || Ahead.op [','] fourth
          || (Ahead.op [':'] fourth && !Ahead.colons fourth) || Ahead.op ['='] fourth))
      || Ahead.word "const" third)

def ifExpr : Parser Unit := do
  let _ ← iterate (fun () => do
    takeWord "if"
    let _ ← nested (.expr false)
    plainBlock
    if ← takeWord? "else" then
      if ← ahead (Ahead.word "if") then return some ()
      else
        plainBlock
        return none
    else return none) ()

def whileExpr : Parser Unit := do
  takeWord "while"
  let _ ← nested (.expr false)
  block

def forExpr : Parser Unit := do
  takeWord "for"
  let _ ← alternatives
  takeWord "in"
  let _ ← nested (.expr false)
  block

def loopExpr : Parser Unit := do
  takeWord "loop"
  block

/-- A loop or block after its label. -/
def labelled : Parser Unit := do
  let _ ← takeLifetime
  takeOp [':']
  if ← ahead (Ahead.word "while") then whileExpr
  else if ← ahead (Ahead.word "for") then forExpr
  else if ← ahead (Ahead.word "loop") then loopExpr
  else if ← ahead (Ahead.opens .brace) then block
  else fail

/-- A match arm. A comma must follow a body that does not end by its own block. -/
def matchArm : Parser Unit := do
  let _ ← outerAttributes
  let _ ← alternatives
  if ← takeWord? "if" then
    let _ ← nested (.expr true)
  takeOp ['=', '>']
  let kind ← nested .early
  if kind != .blockLike && !(← ahead Ahead.atEnd) then takeOp [',']
  else
    let _ ← takeOp? [',']

/-- Tries the expressions that end by their own block; answers whether one was read. -/
def blockLikeExpr : Parser Bool := do
  if ← ahead (Ahead.word "if") then ifExpr
  else if ← ahead (Ahead.word "while") then whileExpr
  else if ← ahead fun t => Ahead.word "for" t && !Ahead.binderAfterFor t then forExpr
  else if ← ahead (Ahead.word "loop") then loopExpr
  else if ← takeWord? "match" then
    let _ ← nested (.expr false)
    within .brace do
      let _ ← innerAttributes
      let _ ← plainList matchArm
  else if ← ahead fun t => Ahead.word "try" t && Ahead.opens .brace (Ahead.next t) then
    takeWord "try"
    plainBlock
  else if ← takeWord? "unsafe" then block
  else if ← ahead fun t => Ahead.word "const" t && Ahead.opens .brace (Ahead.next t) then
    takeWord "const"
    block
  else if ← ahead (Ahead.opens .brace) then block
  else if ← ahead Ahead.lifetime then labelled
  else return false
  return true

/-- An expression at the front of a statement or a match arm: one that ends by its own block is read no
further, unless a dot or a question mark follows. -/
def earlyOf : Parser ExprKind := do
  let _ ← outerAttributes
  let closed ← blockLikeExpr
  let operand ← if closed then pure ExprKind.blockLike else nested (.unary true)
  if operand != .blockLike then nested (.operators operand true .jump)
  else if ← ahead fun t => Ahead.dot t || Ahead.op ['?'] t then
    let operand ← trailers operand
    nested (.operators operand true .jump)
  else return operand

def closureParam : Parser Unit := do
  let _ ← outerAttributes
  let _ ← nested .pattern
  if ← takeOp? [':'] then
    let _ ← nested (.ty true)

def closure (structs : Bool) : Parser Unit := do
  let _ ← binder?
  let _ ← takeWord? "const"
  let _ ← takeWord? "static"
  let _ ← takeWord? "async"
  let _ ← takeWord? "move"
  takeOp ['|']
  let _ ← listUntil (Ahead.op ['|']) closureParam (takeOp [','])
  takeOp ['|']
  if ← takeOp? ['-', '>'] then
    let _ ← nested (.ty true)
    plainBlock
  else
    let _ ← nested (.expr structs)

def fieldValue : Parser Unit := do
  let _ ← outerAttributes
  if ← ahead Ahead.ident then
    let _ ← takeIdent
    if ← takeOp? [':'] then
      let _ ← nested (.expr true)
  else
    takePosition
    takeOp [':']
    let _ ← nested (.expr true)

def structLiteral : Parser Unit :=
  within .brace do
    let _ ← iterate (fun () => do
      if ← ahead Ahead.atEnd then return none
      if ← takeOp? ['.', '.'] then
        if !(← ahead Ahead.atEnd) then
          let _ ← nested (.expr true)
        return none
      fieldValue
      if ← ahead Ahead.atEnd then return none
      takeOp [',']
      return some ()) ()

/-- A path, a macro call or a struct literal. -/
def pathExpr (structs : Bool) : Parser ExprKind := do
  let path ← typePath true
  if ← ahead fun t => isModPath path && Ahead.op ['!'] t && !Ahead.op ['!', '='] t then
    takeOp ['!']
    return if ← takeGroup then .bracedMacro else .plain
  else if ← ahead fun t => structs && Ahead.opens .brace t then
    structLiteral
    return .plain
  else return .plain

def arrayExpr : Parser Unit :=
  within .bracket do
    if ← ahead Ahead.atEnd then return ()
    let _ ← nested (.expr true)
    if ← ahead Ahead.atEnd then return ()
    else if ← takeOp? [';'] then
      let _ ← nested (.expr true)
    else if ← takeOp? [','] then
      let _ ← commaList (nested (.expr true))
    else fail

/-- The value after `return` or `yield`. -/
def optionalValue : Parser Unit := do
  if ← ahead Ahead.expr then
    let _ ← nested (.expr true)

/-- The label and value after `break`. A label may not open a loop here. -/
def breakTail (structs : Bool) : Parser Unit := do
  if ← ahead fun t => Ahead.lifetime t && Ahead.op [':'] (Ahead.next t) then
    let place := (← get).place
    let _ ← nested (.expr true)
    refuse place
  let _ ← takeLifetime?
  if ← ahead fun t => Ahead.expr t && (structs || !Ahead.opens .brace t) then
    let _ ← nested (.expr structs)

def Ahead.closure (trees : List TokenTree) : Bool :=
  let next := Ahead.next trees
  Ahead.op ['|'] trees || Ahead.word "move" trees
    || (Ahead.word "for" trees && Ahead.binderAfterFor trees)
    || (Ahead.word "const" trees && !Ahead.opens .brace next) || Ahead.word "static" trees
    || (Ahead.word "async" trees && (Ahead.op ['|'] next || Ahead.word "move" next))

def Ahead.asyncBlock (trees : List TokenTree) : Bool :=
  let next := Ahead.next trees
  Ahead.word "async" trees
    && (Ahead.opens .brace next
      || (Ahead.word "move" next && Ahead.opens .brace (Ahead.next next)))

def Ahead.pathExpr (trees : List TokenTree) : Bool :=
  let next := Ahead.next trees
  Ahead.ident trees || Ahead.colons trees || Ahead.op ['<'] trees || Ahead.pathWord trees
    || (Ahead.word "try" trees && (Ahead.op ['!'] next || Ahead.colons next))

/-- An operand without what follows it. -/
def atom (structs : Bool) : Parser ExprKind := do
  if ← ahead Ahead.literal then
    takeLiteral
    return .plain
  else if ← ahead Ahead.asyncBlock then
    takeWord "async"
    let _ ← takeWord? "move"
    plainBlock
    return .plain
  else if ← ahead fun t => Ahead.word "try" t && Ahead.opens .brace (Ahead.next t) then
    takeWord "try"
    plainBlock
    return .blockLike
  else if ← ahead Ahead.closure then
    closure structs
    return .plain
  else if ← ahead fun t => Ahead.word "builtin" t && Ahead.op ['#'] (Ahead.next t) then
    let _ ← asWritten do
      takeWord "builtin"
      takeOp ['#']
      let _ ← takeIdent
      within .paren skipToClosing
    return .plain
  else if ← ahead Ahead.pathExpr then pathExpr structs
  else if ← ahead (Ahead.opens .paren) then
    let _ ← within .paren (commaList (nested (.expr true)))
    return .plain
  else if ← takeWord? "break" then
    breakTail structs
    return .plain
  else if ← takeWord? "continue" then
    let _ ← takeLifetime?
    return .plain
  else if ← ahead fun t => Ahead.word "return" t || Ahead.word "yield" t then
    let _ ← takeAnyIdent
    optionalValue
    return .plain
  else if ← takeWord? "become" then
    let _ ← nested (.expr true)
    return .plain
  else if ← ahead (Ahead.opens .bracket) then
    arrayExpr
    return .plain
  else if ← takeWord? "let" then
    let _ ← alternatives
    takeOp ['=']
    let operand ← nested (.unary structs)
    let _ ← nested (.operators operand structs .compare)
    return .plain
  else if ← ahead (Ahead.op ['.', '.']) then exprRangeTail structs
  else if ← takeWord? "_" then return .plain
  else if ← blockLikeExpr then return .blockLike
  else fail

def unaryOf (structs : Bool) : Parser ExprKind := do
  let _ ← outerAttributes
  if ← takeOp? ['&'] then
    let raw ← ahead fun t => Ahead.word "raw" t
      && (Ahead.word "mut" (Ahead.next t) || Ahead.word "const" (Ahead.next t))
    if raw then takeWord "raw"
    let isMut ← takeWord? "mut"
    if raw && !isMut then takeWord "const"
    let _ ← nested (.unary structs)
    return .plain
  else if ← ahead fun t => Ahead.op ['*'] t || Ahead.op ['!'] t || Ahead.op ['-'] t then
    match (← get).rest with
    | .leaf (.punct c _) :: _ => takeOp [c]
    | _ => fail
    let _ ← nested (.unary structs)
    return .plain
  else trailers (← atom structs)

end Accessors.Parsing
