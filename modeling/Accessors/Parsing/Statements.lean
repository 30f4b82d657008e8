import Accessors.Parsing.Items

/-!
The grammar of statements: what a block holds. A statement is an item, a `let`, a macro call or an
expression; an expression needs a semicolon unless it ends the block or ends by its own block.
-/

namespace Accessors.Parsing

/-- A macro call that declares a name, such as a macro definition. -/
def itemMacroAhead : Parser Bool :=
  succeeds do
    let _ ← modPath
    if !(← ahead fun t => Ahead.op ['!'] t
        && (Ahead.ident (Ahead.next t) || Ahead.word "try" (Ahead.next t))) then fail

/-- A macro call in braces that is a statement by itself, since nothing continues it as an expression. -/
def macroStatementAhead : Parser Bool :=
  succeeds do
    let _ ← modPath
    if !(← ahead fun t =>
        let third := Ahead.next (Ahead.next t)
        Ahead.op ['!'] t && Ahead.opens .brace (Ahead.next t)
          && !(Ahead.dot third || Ahead.op ['?'] third)) then fail

/-- What opens an item among statements, macro calls apart. -/
def Ahead.item (trees : List TokenTree) : Bool :=
  let second := Ahead.next trees
  let third := Ahead.next second
  let fnAhead := fun t => Ahead.word "unsafe" t || Ahead.word "extern" t || Ahead.word "fn" t
  Ahead.word "pub" trees || (Ahead.word "crate" trees && !Ahead.colons second)
    || Ahead.word "extern" trees || Ahead.word "use" trees
    || (Ahead.word "static" trees && (Ahead.word "mut" second || Ahead.ident second))
    || (Ahead.word "const" trees
      && !(Ahead.opens .brace second || Ahead.word "static" second
        || (Ahead.word "async" second && !fnAhead third)
        || Ahead.word "move" second || Ahead.op ['|'] second))
    || (Ahead.word "unsafe" trees && !Ahead.opens .brace second)
    || (Ahead.word "async" trees && fnAhead second)
    || Ahead.word "fn" trees || Ahead.word "mod" trees || Ahead.word "type" trees
    || Ahead.word "struct" trees || Ahead.word "enum" trees
    || (Ahead.word "union" trees && Ahead.ident second)
    || (Ahead.word "auto" trees && Ahead.word "trait" second) || Ahead.word "trait" trees
    || (Ahead.word "default" trees && (Ahead.word "unsafe" second || Ahead.word "impl" second))
    || Ahead.word "impl" trees || Ahead.word "macro" trees

/-- A `let` statement. An `else` may follow a value that does not end in a brace. -/
def letStatement : Parser Unit := do
  takeWord "let"
  let _ ← nested .pattern
  if ← takeOp? [':'] then
    let _ ← nested (.ty true)
  if ← takeOp? ['='] then
    let _ ← nested (.expr true)
    let braced := (← get).read.head? == some (.closing .brace)
    if ← ahead fun t => !braced && Ahead.word "else" t then
      takeWord "else"
      plainBlock
  takeOp [';']

/-- A statement; answers whether another may follow it at once. -/
def statement : Parser Bool := do
  let file ← outerAttributes
  if ← macroStatementAhead then
    let _ ← modPath
    takeOp ['!']
    let _ ← takeGroup
    let _ ← takeOp? [';']
    return true
  else if ← ahead (Ahead.word "let") then
    letStatement
    return true
  else if (← ahead Ahead.item) || (← itemMacroAhead) then
    let _ ← itemAfterAttributes file
    return true
  else
    let kind ← nested .early
    let ended ← takeOp? [';']
    return ended || kind = .blockLike || kind = .bracedMacro

def statementsOf : Parser Unit := do
  let _ ← iterate (fun () => do
    if ← takeOp? [';'] then return some ()
    if ← ahead Ahead.atEnd then return none
    let complete ← statement
    if ← ahead Ahead.atEnd then return none
    if complete then return some () else fail) ()

end Accessors.Parsing
