import Accessors.Parsing.Types

/-!
The grammar of patterns. A pattern is read and not kept, apart from what decides whether it may stand where
it stands.
-/

namespace Accessors.Parsing

/-- What opens a pattern by its path. -/
def Ahead.pathPattern (trees : List TokenTree) : Bool :=
  let next := Ahead.next trees
  (Ahead.ident trees
      && (Ahead.colons next || Ahead.op ['!'] next || Ahead.opens .brace next || Ahead.opens .paren next
        || Ahead.op ['.', '.'] next))
    || (Ahead.word "self" trees && Ahead.colons next)
    || Ahead.colons trees || Ahead.op ['<'] trees || Ahead.word "Self" trees
    || Ahead.word "super" trees || Ahead.word "crate" trees

/-- What ends a range without an upper end. -/
def Ahead.rangeEnd (trees : List TokenTree) : Bool :=
  Ahead.atEnd trees || Ahead.op ['|'] trees || Ahead.op ['='] trees
    || (Ahead.op [':'] trees && !Ahead.colons trees) || Ahead.op [','] trees || Ahead.op [';'] trees
    || Ahead.word "if" trees

/-- A single vertical bar between alternatives. -/
def Ahead.bar (trees : List TokenTree) : Bool :=
  Ahead.op ['|'] trees && !Ahead.op ['|', '|'] trees && !Ahead.op ['|', '='] trees

/-- The end of a range in a pattern; answers whether there is one. -/
def rangeBound : Parser Bool := do
  if ← ahead Ahead.rangeEnd then return false
  if ← ahead Ahead.literal then takeLiteral
  else if ← ahead Ahead.pathType then
    let _ ← typePath true
  else if ← takeWord? "const" then block
  else fail
  return true

/-- The sign of a range; answers whether the range holds its upper end. Three dots are an old writing of
two dots and an equals sign. -/
def rangeSign : Parser Bool := do
  if ← takeOp? ['.', '.', '='] then return true
  else if ← ahead (Ahead.op ['.', '.', '.']) then
    consume 3 (opLexemes ['.', '.', '='])
    return true
  else
    takeOp ['.', '.']
    return false

/-- The sign and upper end of a range whose lower end was read. -/
def rangeTail : Parser PatternKind := do
  let place := (← get).place
  let closed ← rangeSign
  let ended ← rangeBound
  if ended then return .plain
  else if closed then fail
  else return .halfRange place

/-- A pattern with alternatives; a vertical bar may lead them. -/
def alternatives : Parser PatternKind := do
  let led ← takeOp? ['|']
  let first ← nested .pattern
  let more ← ahead Ahead.bar
  whileAhead Ahead.bar do
    takeOp ['|']
    let _ ← nested .pattern
  return if led || more then .plain else first

def fieldPattern : Parser Unit := do
  let boxed ← takeWord? "box"
  let byRef ← takeWord? "ref"
  let isMut ← takeWord? "mut"
  if boxed || byRef || isMut then
    let _ ← takeIdent
  else if ← ahead Ahead.ident then
    let _ ← takeIdent
    if ← takeOp? [':'] then
      let _ ← alternatives
  else
    match (← get).rest with
    | .leaf (.literal name) :: _ =>
        if Literal.isInteger name.text then
          takeLiteral
          takeOp [':']
          let _ ← alternatives
        else fail
    | _ => fail

def structPattern : Parser Unit :=
  within .brace do
    let _ ← iterate (fun () => do
      if ← ahead Ahead.atEnd then return none
      let _ ← outerAttributes
      if ← takeOp? ['.', '.'] then return none
      fieldPattern
      if ← ahead Ahead.atEnd then return none
      takeOp [',']
      return some ()) ()

def pathPattern : Parser PatternKind := do
  let path ← typePath true
  if ← ahead fun t => isModPath path && Ahead.op ['!'] t && !Ahead.op ['!', '='] t then
    takeOp ['!']
    let _ ← takeGroup
    return .plain
  else if ← ahead (Ahead.opens .brace) then
    structPattern
    return .plain
  else if ← ahead (Ahead.opens .paren) then
    let _ ← within .paren (commaList alternatives)
    return .plain
  else if ← ahead (Ahead.op ['.', '.']) then rangeTail
  else return .plain

/-- A slice pattern. A range without both ends needs parentheses in it. -/
def sliceElement : Parser Unit := do
  match ← alternatives with
  | .halfRange place => refuse place
  | _ => return ()

def patternOf : Parser PatternKind := do
  if ← ahead Ahead.pathPattern then pathPattern
  else if ← takeWord? "_" then return .plain
  else if ← takeWord? "box" then
    let _ ← nested .pattern
    return .plain
  else if ← ahead fun t => Ahead.op ['-'] t || Ahead.literal t || Ahead.word "const" t then
    let _ ← rangeBound
    if ← ahead (Ahead.op ['.', '.']) then rangeTail else return .plain
  else if ← ahead fun t =>
      Ahead.word "ref" t || Ahead.word "mut" t || Ahead.word "self" t || Ahead.ident t then
    let _ ← takeWord? "ref"
    let _ ← takeWord? "mut"
    let _ ← if ← ahead (Ahead.word "self") then takeAnyIdent else takeIdent
    if ← takeOp? ['@'] then
      let _ ← nested .pattern
    return .plain
  else if ← takeOp? ['&'] then
    let _ ← takeWord? "mut"
    let _ ← nested .pattern
    return .plain
  else if ← ahead (Ahead.opens .paren) then
    let _ ← within .paren (commaList alternatives)
    return .plain
  else if ← ahead (Ahead.opens .bracket) then
    let _ ← within .bracket (commaList sliceElement)
    return .plain
  else if ← ahead fun t => Ahead.op ['.', '.'] t && !Ahead.op ['.', '.', '.'] t then
    let place := (← get).place
    let closed ← rangeSign
    if ← rangeBound then return .halfRange place
    else if closed then fail
    else return .rest
  else fail

end Accessors.Parsing
