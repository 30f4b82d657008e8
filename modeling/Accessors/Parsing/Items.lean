import Accessors.Parsing.Expressions

/-!
The grammar of items: structs, enums, traits, functions, `use` trees and all that a file may declare.
Some declarations are read in full but bind no name here, because only a wider language gives them a meaning:
a function, constant or static without a body or value, a `use` with a `::` inside its braces, and others.
-/

namespace Accessors.Parsing

/-! Visibility. -/

/-- A restriction in parentheses after `pub`; it fails where the parentheses belong to what follows. -/
def restriction : Parser Unit := do
  within .paren do
    if ← ahead fun t => Ahead.word "crate" t || Ahead.word "self" t || Ahead.word "super" t then
      let _ ← takeAnyIdent
      if !(← ahead Ahead.atEnd) then fail
    else
      takeWord "in"
      let _ ← modPath

/-- Visibility; answers whether it is written. -/
def visibility : Parser Bool := do
  if ← takeWord? "pub" then
    if ← ahead fun t => Ahead.opens .paren t && Ahead.word "in" (Ahead.inside t) then restriction
    else
      let _ ← attempt restriction
    return true
  else return false

/-! Functions. -/

/-- What opens a function after its visibility; `safe` is a word of foreign functions only. -/
def signatureAhead (allowSafe : Bool) : Parser Bool :=
  succeeds do
    let _ ← takeWord? "const"
    let _ ← takeWord? "async"
    if ← ahead fun t => allowSafe && Ahead.word "safe" t then takeWord "safe"
    else
      let _ ← takeWord? "unsafe"
    let _ ← abi?
    if !(← ahead (Ahead.word "fn")) then fail

/-- A receiver; answers the place of its name. -/
def receiver : Parser Place := do
  let borrowed ← takeOp? ['&']
  if borrowed then
    let _ ← takeLifetime?
  let _ ← takeWord? "mut"
  let place := (← get).place
  takeWord "self"
  if !borrowed then
    if ← takeOp? [':'] then
      let _ ← nested (.ty true)
  return place

/-- A parameter. A name with a `<` after it is a type without a pattern. Only the first may be a receiver. -/
def param (first : Bool) : Parser FnParam := do
  match ← attempt receiver with
  | some place => if first then return .receiver else refuse place
  | none =>
      if ← ahead fun t => Ahead.ident t && Ahead.op ['<'] (Ahead.next t) then
        return .typed (← nested (.ty true))
      let _ ← nested .pattern
      takeOp [':']
      if ← takeOp? ['.', '.', '.'] then return .variadic
      return .typed (← nested (.ty true))

/-- The comma after the dots of further arguments, unless they end the list. -/
def variadicEnd : Parser Unit := do
  if !(← ahead Ahead.atEnd) then takeOp [',']

def paramRounds (first : Bool) : Nat → Parser (List FnParam)
  | 0 => fail
  | rounds + 1 => do
      if ← ahead Ahead.atEnd then return []
      let _ ← outerAttributes
      if ← takeOp? ['.', '.', '.'] then
        variadicEnd
        return [.variadic]
      let next ← param first
      if next matches .variadic then
        variadicEnd
        return [next]
      if ← ahead Ahead.atEnd then return [next]
      takeOp [',']
      return next :: (← paramRounds false rounds)

def params : Parser (List FnParam) := do
  paramRounds true ((← get).rest.length + 1)

def signature (allowSafe : Bool) : Parser FnDecl := do
  let _ ← takeWord? "const"
  let _ ← takeWord? "async"
  if !(← takeWord? "unsafe") then
    if ← ahead fun t => allowSafe && Ahead.word "safe" t then takeWord "safe"
  let _ ← abi?
  takeWord "fn"
  let name ← takeIdent
  let _ ← genericParams
  let params ← within .paren params
  let output ← returnType true
  let _ ← whereClause
  return ⟨name, params, output⟩

/-! Types and values. -/

/-- Bounds after a colon, up to the given stop. -/
def boundsAfterColon (stop : List TokenTree → Bool) : Parser Bool := do
  if ← takeOp? [':'] then
    let _ ← listUntil stop (nested (.bound false true)) (takeOp ['+'])
    return true
  else return false

/-- Where the `where` clause of a type declaration stands. -/
inductive WherePlace where
  | beforeTarget
  | afterTarget
  | either
  deriving DecidableEq

/-- A type declaration of any kind after its attributes: its name, its parameters, and its target if it has one
and is not bounded. -/
def typeDecl (allowDefault : Bool) (clause : WherePlace) : Parser (Ident × List GenericParam × Option Ty) := do
  let _ ← visibility
  if allowDefault then
    let _ ← takeWord? "default"
  takeWord "type"
  let name ← takeIdent
  let params ← genericParams
  let bounded ← boundsAfterColon fun t => Ahead.word "where" t || Ahead.op ['='] t || Ahead.op [';'] t
  let early ← if clause = .afterTarget then pure [] else whereClause
  let target ← if ← takeOp? ['='] then some <$> nested (.ty true) else pure none
  if clause = .afterTarget || (clause = .either && early.isEmpty) then
    let _ ← whereClause
  takeOp [';']
  return (name, params, if bounded then none else target)

/-- A constant after the word: its name, and whether it is a plain constant with a value. -/
def constTail : Parser (Ident × Bool) := do
  let name ← if ← ahead fun t => Ahead.ident t || Ahead.word "_" t then takeAnyIdent else fail
  let generic ← ahead (Ahead.op ['<'])
  let _ ← genericParams
  takeOp [':']
  let _ ← nested (.ty true)
  let valued ← takeOp? ['=']
  if valued then
    let _ ← nested (.expr true)
  let clause ← ahead (Ahead.word "where")
  let _ ← whereClause
  takeOp [';']
  return (name, valued && !generic && !clause)

/-- A macro call after its attributes: the name it declares. A semicolon must follow unless it has braces. -/
def macroItem : Parser (Option Ident) := do
  let _ ← modPath
  takeOp ['!']
  let name ←
    if ← ahead fun t => Ahead.ident t || Ahead.word "try" t then some <$> takeAnyIdent else pure none
  if !(← takeGroup) then takeOp [';']
  return name

/-- A macro call as a member of a trait, an implementation or a foreign block. -/
def macroMember : Parser Unit := do
  let _ ← modPath
  takeOp ['!']
  if !(← takeGroup) then takeOp [';']

/-- What opens a macro call where items stand. -/
def Ahead.macroItem (trees : List TokenTree) : Bool :=
  Ahead.ident trees || Ahead.word "self" trees || Ahead.word "super" trees
    || Ahead.word "crate" trees || Ahead.colons trees

/-! Fields. -/

def namedField : Parser (Ident × Ty) := do
  let _ ← outerAttributes
  let _ ← visibility
  let unnamed ← ahead (Ahead.word "_")
  let name ← if unnamed then takeAnyIdent else takeIdent
  takeOp [':']
  if ← ahead fun t => unnamed
      && (Ahead.word "struct" t || (Ahead.word "union" t && Ahead.opens .brace (Ahead.next t))) then
    let (_, lexemes) ← asWritten do
      let _ ← takeAnyIdent
      within .brace skipToClosing
    return (name, .verbatim lexemes)
  else return (name, ← nested (.ty true))

def namedFields : Parser (List (Ident × Ty)) :=
  within .brace (commaList namedField)

def positionalFields : Parser (List Ty) :=
  within .paren (commaList do
    let _ ← outerAttributes
    let _ ← visibility
    nested (.ty true))

/-- What follows the generics of a struct. A `where` clause stands before braces and after parentheses. -/
def structTail : Parser (List WherePredicate × Fields) := do
  let claused ← ahead (Ahead.word "where")
  let predicates ← whereClause
  if ← ahead fun t => !claused && Ahead.opens .paren t then
    let types ← positionalFields
    let predicates ← whereClause
    takeOp [';']
    return (predicates, .positional types)
  else if ← ahead (Ahead.opens .brace) then return (predicates, .named (← namedFields))
  else
    takeOp [';']
    return (predicates, .unit)

def structItem : Parser StructDecl := do
  takeWord "struct"
  let name ← takeIdent
  let params ← genericParams
  let (predicates, fields) ← structTail
  return ⟨name, ⟨params, predicates⟩, fields⟩

def variant : Parser Unit := do
  let _ ← outerAttributes
  let _ ← visibility
  let _ ← takeIdent
  if ← ahead (Ahead.opens .brace) then
    let _ ← namedFields
  else if ← ahead (Ahead.opens .paren) then
    let _ ← positionalFields
  if ← takeOp? ['='] then
    let _ ← nested (.expr true)

/-! Traits, implementations and foreign blocks. -/

/-- A function with a body, or a semicolon where that is allowed. -/
def functionBody : Parser Unit := block

def traitMember : Parser Unit := do
  let _ ← outerAttributes
  let isPub ← visibility
  let isDefault ← takeWord? "default"
  let isFn ← signatureAhead false
  if isFn || (← ahead (Ahead.word "fn")) then
    let _ ← signature false
    if ← ahead (Ahead.opens .brace) then functionBody else takeOp [';']
  else if ← ahead (Ahead.word "const") then
    takeWord "const"
    let _ ← constTail
  else if ← ahead (Ahead.word "type") then
    let _ ← typeDecl false .afterTarget
  else if ← ahead fun t => !isPub && !isDefault && Ahead.macroItem t then macroMember
  else fail

/-- A member of an implementation; answers the function if it is one. -/
def implMember : Parser (Option FnDecl) := do
  let _ ← outerAttributes
  let isPub ← visibility
  let isDefault ←
    if ← ahead fun t => Ahead.word "default" t && !Ahead.op ['!'] (Ahead.next t) then takeWord? "default"
    else pure false
  let isFn ← signatureAhead false
  if isFn || (← ahead (Ahead.word "fn")) then
    let decl ← signature false
    if !(← takeOp? [';']) then functionBody
    return some decl
  else if ← ahead (Ahead.word "const") then
    takeWord "const"
    let _ ← constTail
    return none
  else if ← ahead (Ahead.word "type") then
    let _ ← typeDecl false .afterTarget
    return none
  else if ← ahead fun t => !isPub && !isDefault && Ahead.macroItem t then
    macroMember
    return none
  else fail

def foreignMember : Parser Unit := do
  let _ ← outerAttributes
  let isPub ← visibility
  let isFn ← signatureAhead true
  if isFn || (← ahead (Ahead.word "fn")) then
    let _ ← signature true
    if ← ahead (Ahead.opens .brace) then block else takeOp [';']
  else if ← ahead fun t => Ahead.word "static" t
      || ((Ahead.word "unsafe" t || Ahead.word "safe" t) && Ahead.word "static" (Ahead.next t)) then
    if !(← takeWord? "unsafe") then
      let _ ← takeWord? "safe"
    takeWord "static"
    let _ ← takeWord? "mut"
    let _ ← takeIdent
    takeOp [':']
    let _ ← nested (.ty true)
    if ← takeOp? ['='] then
      let _ ← nested (.expr true)
    takeOp [';']
  else if ← ahead (Ahead.word "type") then
    let _ ← typeDecl false .either
  else if ← ahead fun t => !isPub && Ahead.macroItem t then macroMember
  else fail

/-- The members of a braced block, which may begin with inner attributes. -/
def members {α : Type} (member : Parser α) : Parser (List α) :=
  within .brace do
    let _ ← innerAttributes
    plainList member

/-- A trait after its generics. -/
def traitTail : Parser Unit := do
  let _ ← boundsAfterColon fun t => Ahead.word "where" t || Ahead.opens .brace t
  let _ ← whereClause
  let _ ← members traitMember

/-- A trait or a name for bounds, from the word on; answers its name. -/
def traitItem (allowAlias : Bool) : Parser Ident := do
  takeWord "trait"
  let name ← takeIdent
  let _ ← genericParams
  if ← ahead fun t => allowAlias && Ahead.op ['='] t then
    takeOp ['=']
    let _ ← listUntil (fun t => Ahead.word "where" t || Ahead.op [';'] t) (nested (.bound false true))
      (takeOp ['+'])
    let _ ← whereClause
    takeOp [';']
  else traitTail
  return name

/-- Whether a `<` after `impl` opens generic parameters and not a path through a type. -/
def Ahead.implGenerics (trees : List TokenTree) : Bool :=
  let second := Ahead.next trees
  let third := Ahead.next second
  Ahead.op ['<'] trees
    && (Ahead.op ['>'] second || Ahead.op ['#'] second
      || ((Ahead.lifetime second || Ahead.ident second)
        && (Ahead.op ['>'] third || Ahead.op [','] third
          || (Ahead.op [':'] third && !Ahead.colons third) || Ahead.op ['='] third))
      || Ahead.word "const" second)

def implItem : Parser ImplDecl := do
  let _ ← takeWord? "default"
  let _ ← takeWord? "unsafe"
  takeWord "impl"
  let params ← if ← ahead Ahead.implGenerics then genericParams else pure []
  if ← ahead fun t => Ahead.word "const" t
      || (Ahead.op ['?'] t && Ahead.word "const" (Ahead.next t)) then
    let _ ← takeOp? ['?']
    takeWord "const"
  let place := (← get).place
  let negative ←
    if ← ahead fun t => Ahead.op ['!'] t && !Ahead.opens .brace (Ahead.next t) then takeOp? ['!']
    else pure false
  let first ← nested (.ty true)
  let second ← if ← takeWord? "for" then some <$> nested (.ty true) else pure none
  if negative && second.isNone then refuse place
  let predicates ← whereClause
  let functions ← members implMember
  let generics : Generics := ⟨params, predicates⟩
  match second with
  | some target => return ⟨generics, some first, target, functions.filterMap id⟩
  | none => return ⟨generics, none, first, functions.filterMap id⟩

/-! `use` trees. -/

/-- The members of a braced `use` tree; none if one begins with `::`. -/
def useGroup (rootInside : Bool) : Parser (Option (List UseTree)) := do
  let trees ← commaList do
    let rooted ← if rootInside then takeOp? [':', ':'] else pure false
    let tree ← nested (.useTree (rootInside && !rooted))
    return if rooted then none else tree
  return trees.mapM id

def useTreeOf (rootInside : Bool) : Parser (Option UseTree) := do
  if ← ahead fun t => Ahead.ident t || Ahead.word "self" t || Ahead.word "super" t
      || Ahead.word "crate" t || Ahead.word "try" t then
    let name ← takeAnyIdent
    if ← takeOp? [':', ':'] then return (← nested (.useTree false)).map (.path name)
    else if ← takeWord? "as" then
      if ← ahead fun t => Ahead.ident t || Ahead.word "_" t then
        return some (.rename name (← takeAnyIdent))
      else fail
    else return some (.name name)
  else if ← takeOp? ['*'] then return some .glob
  else if ← ahead (Ahead.opens .brace) then
    return (← within .brace (useGroup rootInside)).map .group
  else fail

def useItem : Parser Item := do
  takeWord "use"
  let rooted ← takeOp? [':', ':']
  let tree ← nested (.useTree (!rooted))
  takeOp [';']
  return match tree with
  | some tree => .use rooted tree
  | none => .other

/-! Items. -/

/-- A static after its visibility. Without a type or a value it declares nothing here. -/
def staticItem : Parser Item := do
  takeWord "static"
  let _ ← takeWord? "mut"
  let name ← takeIdent
  if ← takeOp? ['='] then
    let _ ← nested (.expr true)
    takeOp [';']
    return .other
  takeOp [':']
  let _ ← nested (.ty true)
  if ← takeOp? [';'] then return .other
  takeOp ['=']
  let _ ← nested (.expr true)
  takeOp [';']
  return .static name

def externCrate : Parser Unit := do
  takeWord "extern"
  takeWord "crate"
  let _ ← if ← ahead (Ahead.word "self") then takeAnyIdent else takeIdent
  if ← takeWord? "as" then
    let _ ← if ← ahead (Ahead.word "_") then takeAnyIdent else takeIdent
  takeOp [';']

/-- A block of foreign declarations from the word `extern` on. -/
def foreignBlock : Parser Unit := do
  takeWord "extern"
  if ← ahead Ahead.textLiteral then
    let _ ← takeTextLiteral
  let _ ← members foreignMember

/-- A module after its visibility, with the file named before it. -/
def moduleItem (file : Option String) : Parser Item := do
  let _ ← takeWord? "unsafe"
  takeWord "mod"
  let name ← if ← ahead (Ahead.word "try") then takeAnyIdent else takeIdent
  if ← takeOp? [';'] then return .module name file none
  within .brace do
    let inner ← innerAttributes
    return .module name (file.or inner) (some (← plainList (nested .item)))

/-- A macro definition by the word `macro`, which is not looked into. -/
def macroDecl : Parser Unit := do
  takeWord "macro"
  let _ ← takeIdent
  if ← ahead (Ahead.opens .paren) then within .paren skipToClosing
  within .brace skipToClosing

/-- An item after its attributes and visibility. -/
def itemTail (file : Option String) (isPub : Bool) : Parser Item := do
  if (← ahead (Ahead.word "fn")) || (← signatureAhead false) then
    let decl ← signature false
    if ← takeOp? [';'] then return .other
    functionBody
    return .function decl.name
  else if ← ahead (Ahead.word "extern") then
    let next := Ahead.next (← get).rest
    if Ahead.word "crate" next then externCrate
    else if Ahead.opens .brace next || Ahead.textLiteral next then foreignBlock
    else
      takeWord "extern"
      fail
    return .other
  else if ← ahead (Ahead.word "use") then useItem
  else if ← ahead (Ahead.word "static") then staticItem
  else if ← takeWord? "const" then
    let (name, plain) ← constTail
    return if plain then .const name else .other
  else if ← ahead (Ahead.word "unsafe") then
    let next := Ahead.next (← get).rest
    if Ahead.word "trait" next || (Ahead.word "auto" next && Ahead.word "trait" (Ahead.next next)) then
      takeWord "unsafe"
      let _ ← takeWord? "auto"
      return .trait (← traitItem false)
    else if Ahead.word "impl" next then return .impl (← implItem)
    else if Ahead.word "extern" next then
      takeWord "unsafe"
      foreignBlock
      return .other
    else if Ahead.word "mod" next then moduleItem file
    else
      takeWord "unsafe"
      fail
  else if ← ahead (Ahead.word "mod") then moduleItem file
  else if ← ahead (Ahead.word "type") then
    match ← typeDecl false .beforeTarget with
    | (name, params, some target) => return .typeAlias ⟨name, params, target⟩
    | (_, _, none) => return .other
  else if ← ahead (Ahead.word "struct") then return .struct (← structItem)
  else if ← takeWord? "enum" then
    let name ← takeIdent
    let _ ← genericParams
    let _ ← whereClause
    let _ ← within .brace (commaList variant)
    return .enum name
  else if ← ahead fun t => Ahead.word "union" t && Ahead.ident (Ahead.next t) then
    takeWord "union"
    let name ← takeIdent
    let _ ← genericParams
    let _ ← whereClause
    let _ ← namedFields
    return .union name
  else if ← ahead (Ahead.word "trait") then return .trait (← traitItem true)
  else if ← ahead fun t => Ahead.word "auto" t && Ahead.word "trait" (Ahead.next t) then
    takeWord "auto"
    return .trait (← traitItem false)
  else if ← ahead fun t =>
      Ahead.word "impl" t || (Ahead.word "default" t && !Ahead.op ['!'] (Ahead.next t)) then
    return .impl (← implItem)
  else if ← ahead (Ahead.word "macro") then
    macroDecl
    return .other
  else if ← ahead fun t => !isPub && Ahead.macroItem t then return .macroCall (← macroItem)
  else fail

/-- An item after its attributes, which named the given file. An item that declares nothing here is kept as
it was written. -/
def itemAfterAttributes (file : Option String) : Parser Item := do
  let (item, _) ← asWrittenWhen (fun | .other | .impl _ => true | _ => false) do
    itemTail file (← visibility)
  return item

def itemOf : Parser Item := do
  itemAfterAttributes (← outerAttributes)

end Accessors.Parsing
