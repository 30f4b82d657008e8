import Accessors.Parsing.Combinators

/-!
Plain paths and attributes. Of an attribute only one thing matters here: the file that an attribute of the
form `path = ".."` names.
-/

namespace Accessors.Parsing

/-- The words that may be path segments although they are reserved. -/
def Ahead.pathWord (trees : List TokenTree) : Bool :=
  Ahead.word "super" trees || Ahead.word "self" trees || Ahead.word "Self" trees
    || Ahead.word "crate" trees

def modSegments : Nat → Parser (List String)
  | 0 => fail
  | rounds + 1 => do
      if ← ahead fun t => Ahead.ident t || Ahead.pathWord t then
        let name ← takeAnyIdent
        if ← takeOp? [':', ':'] then return name.text :: (← modSegments rounds)
        return [name.text]
      else fail

/-- A path without arguments: whether a `::` leads it, and its segments. -/
def modPath : Parser (Bool × List String) := do
  let rooted ← takeOp? [':', ':']
  let segments ← modSegments ((← get).rest.length + 1)
  return (rooted, segments)

/-- A literal with nothing after it in its group; answers the text of a text literal. -/
def loneLiteral : Parser (Option String) := do
  let text ←
    match (← get).rest with
    | .leaf (.literal name) :: _ =>
        pure (if Literal.isText name.text then some (Literal.textValue name.text) else none)
    | _ => pure none
  takeLiteral
  if ← ahead Ahead.atEnd then return text else fail

/-- What stands in the brackets of an attribute; answers the file that it names. -/
def attributeBody : Parser (Option String) := do
  let (rooted, segments) ←
    if ← takeWord? "unsafe" then pure (false, ["unsafe"]) else modPath
  if ← ahead Ahead.opensAny then
    let _ ← takeGroup
    return none
  else if ← takeOp? ['='] then
    match ← attempt loneLiteral with
    | some text => return if !rooted && segments == ["path"] then text else none
    | none =>
        if ← ahead fun t => Ahead.op ['#'] t && Ahead.opens .bracket (Ahead.next t) then fail
        let _ ← nested (.expr true)
        return none
  else return none

def outerAttribute : Parser (Option String) := do
  takeOp ['#']
  within .bracket attributeBody

/-- The attributes before something; answers the first file that one names. -/
def outerAttributes : Parser (Option String) :=
  iterate (fun file => do
    if ← ahead (Ahead.op ['#']) then return some (file.or (← outerAttribute)) else return none) none

def innerAttribute : Parser (Option String) := do
  takeOp ['#']
  takeOp ['!']
  within .bracket attributeBody

/-- The attributes inside something, at its front; answers the first file that one names. -/
def innerAttributes : Parser (Option String) :=
  iterate (fun file => do
    if ← ahead fun t => Ahead.op ['#'] t && Ahead.op ['!'] (Ahead.next t) then
      return some (file.or (← innerAttribute))
    else return none) none

end Accessors.Parsing
