import Accessors.Parsing.Attributes

/-!
The grammar of types: paths with arguments, bounds, generics and `where` clauses.

Parenthesized arguments belong to bounds alone. A type without parentheses may be a sum of bounds only where
the caller allows sums, and a list of bounds that holds lifetimes alone is no type.
-/

namespace Accessors.Parsing

/-- A block without inner attributes. -/
def plainBlock : Parser Unit :=
  within .brace (nested .statements)

/-- A block that may begin with inner attributes. -/
def block : Parser Unit :=
  within .brace do
    let _ ← innerAttributes
    nested .statements

/-- A constant argument: a literal, a name, or a block. -/
def constArg : Parser Unit := do
  if ← ahead Ahead.literal then takeLiteral
  else if ← ahead Ahead.ident then
    let _ ← takeIdent
  else if ← ahead (Ahead.opens .brace) then block
  else fail

def returnType (sums : Bool) : Parser (Option Ty) := do
  if ← takeOp? ['-', '>'] then return some (← nested (.ty sums)) else return none

/-! Bounds and arguments. -/

/-- What opens the arguments of a segment. Outside types a `::` must lead them. -/
def Ahead.angleArgs (inExpr : Bool) (trees : List TokenTree) : Bool :=
  (!inExpr && Ahead.op ['<'] trees && !Ahead.op ['<', '='] trees)
    || (Ahead.colons trees && Ahead.op ['<'] (trees.drop 2))

/-- What opens parenthesized arguments. -/
def Ahead.callArgs (trees : List TokenTree) : Bool :=
  Ahead.opens .paren trees || (Ahead.colons trees && Ahead.opens .paren (trees.drop 2))

/-- The words that are segments by themselves and take no arguments. -/
def Ahead.bareSegment (trees : List TokenTree) : Bool :=
  Ahead.word "super" trees || Ahead.word "self" trees || Ahead.word "crate" trees
    || Ahead.word "try" trees

def segment (inExpr : Bool) : Parser Segment := do
  if ← ahead Ahead.bareSegment then return .plain (← takeAnyIdent)
  let name ← if ← ahead (Ahead.word "Self") then takeAnyIdent else takeIdent
  if ← ahead (Ahead.angleArgs inExpr) then
    let turbofish ← takeOp? [':', ':']
    return .angle name turbofish (← nested .angleArgs)
  else return .plain name

def segmentRounds (inExpr : Bool) : Nat → Parser (List Segment)
  | 0 => fail
  | rounds + 1 => do
      let first ← segment inExpr
      if ← ahead fun t => Ahead.colons t && !Ahead.opens .paren (t.drop 2) then
        takeOp [':', ':']
        return first :: (← segmentRounds inExpr rounds)
      else return [first]

/-- The segments of a path after its leading `::`. A `::` before a parenthesis is left alone. -/
def segments (inExpr : Bool) : Parser (List Segment) := do
  segmentRounds inExpr ((← get).rest.length + 1)

/-- Parenthesized arguments for the last segment of a trait's path, if they stand here. -/
def callArgs (path : List Segment) : Parser (List Segment) := do
  match path.getLast? with
  | some (.plain name) =>
      if ← ahead Ahead.callArgs then
        if ← ahead Ahead.colons then consume 2 []
        let inputs ← within .paren (commaList (nested (.ty true)))
        let output ← returnType false
        return path.dropLast ++ [.call name inputs output]
      else return path
  | _ => return path

/-- What ends a list of bounds inside angle brackets. -/
def Ahead.argEnd (trees : List TokenTree) : Bool :=
  Ahead.op [','] trees || Ahead.op ['>'] trees

def genericParam : Parser GenericParam := do
  let _ ← outerAttributes
  if ← ahead Ahead.ident then
    let name ← takeIdent
    let bounds ←
      if ← takeOp? [':'] then
        chainUntil ['+'] (fun t => Ahead.argEnd t || Ahead.op ['='] t) (nested (.bound false true))
      else pure []
    if ← takeOp? ['='] then
      let _ ← nested (.ty true)
    return .type name bounds
  else if ← ahead Ahead.lifetime then
    let name ← takeLifetime
    let bounds ← if ← takeOp? [':'] then chainUntil ['+'] Ahead.argEnd takeLifetime else pure []
    return .lifetime name bounds
  else if ← takeWord? "const" then
    let name ← takeIdent
    takeOp [':']
    let ty ← nested (.ty true)
    if ← takeOp? ['='] then constArg
    return .const name ty
  else fail

/-- The parameters of a `for` binder, if one stands here. -/
def binder? : Parser (Option Binder) := do
  if ← takeWord? "for" then
    takeOp ['<']
    let params ← listUntil (Ahead.op ['>']) (captured genericParam) (takeOp [','])
    takeOp ['>']
    return some (params.map (·.2))
  else return none

/-- A trait with what may stand before it; none if it is constant, which is not looked into. A binder and a
question mark exclude each other. -/
def traitBound (consts inParens : Bool) : Parser (Option Bound) := do
  let outer ← binder?
  let place := (← get).place
  let conditional ← ahead (Ahead.opens .bracket)
  let constant ← if conditional then pure true else ahead (Ahead.word "const")
  if conditional then within .bracket (takeWord "const")
  else if constant then takeWord "const"
  if constant && !consts then refuse place
  let mark := (← get).place
  let relaxed ← takeOp? ['?']
  let binder ← if outer.isNone && relaxed then binder? else pure outer
  let rooted ← takeOp? [':', ':']
  let path ← callArgs (← segments false)
  if relaxed && binder.isSome then refuse mark
  return if constant then none else some (.trait inParens relaxed binder rooted path)

/-- A list of captured parameters: `use<'a, T>`. -/
def capturedParams : Parser Unit := do
  takeWord "use"
  takeOp ['<']
  let _ ← listUntil (Ahead.op ['>']) (do
    if ← ahead Ahead.lifetime then
      let _ ← takeLifetime
    else if ← ahead fun t => Ahead.ident t || Ahead.word "Self" t then
      let _ ← takeAnyIdent
    else fail) (takeOp [','])
  takeOp ['>']

def bound (captures consts : Bool) : Parser Bound := do
  if ← ahead Ahead.lifetime then return .lifetime (← takeLifetime)
  if ← ahead (Ahead.word "use") then
    let place := (← get).place
    let (_, lexemes) ← captured capturedParams
    if captures then return .verbatim lexemes else refuse place
  let (found, lexemes) ← asWrittenWhen Option.isNone do
    if ← ahead (Ahead.opens .paren) then within .paren (traitBound consts true)
    else traitBound consts false
  return found.getD (.verbatim lexemes)

/-- What may open another bound after a plus sign. -/
def Ahead.bound (trees : List TokenTree) : Bool :=
  Ahead.anyIdent trees || Ahead.colons trees || Ahead.op ['?'] trees || Ahead.lifetime trees
    || Ahead.opens .paren trees

def boundRounds (p : Parser Bound) (another : List TokenTree → Bool) : Nat → Parser (List Bound)
  | 0 => fail
  | rounds + 1 => do
      let first ← p
      if ← takeOp? ['+'] then
        if ← ahead another then return first :: (← boundRounds p another rounds)
      return [first]

/-- A sum of bounds; a plus sign may end it. -/
def boundSum (sums captures consts : Bool) : Parser (List Bound) := do
  if sums then
    boundRounds (nested (.bound captures consts))
      (fun t => Ahead.bound t || (consts && Ahead.opens .bracket t)) ((← get).rest.length + 1)
  else return [← nested (.bound captures consts)]

/-- An argument that begins with a name and its arguments, which may be an associated name; alone they are a type.
A constant bound to a name is told by its lexemes alone. -/
def associatedArg (alone : Ty) (name : Ident) (args : Option (List GenericArg)) : Parser GenericArg := do
  if ← takeOp? ['='] then
    if ← ahead fun t => Ahead.literal t || Ahead.opens .brace t then
      constArg
      return .const []
    return .binding name args (← nested (.ty true))
  else if ← takeOp? [':'] then
    return .constraint name args (← chainUntil ['+'] Ahead.argEnd (nested (.bound false true)))
  else return .type alone

def typeArg : Parser GenericArg := do
  let ty ← nested (.ty true)
  match ty with
  | .path false [.plain name] => associatedArg ty name none
  | .path false [.angle name _ args] => associatedArg ty name (some args)
  | _ => return .type ty

def genericArg : Parser GenericArg := do
  if ← ahead fun t => Ahead.lifetime t && !Ahead.op ['+'] (Ahead.next t) then
    return .lifetime (← takeLifetime)
  else if ← ahead fun t => Ahead.literal t || Ahead.opens .brace t then
    let (_, lexemes) ← captured constArg
    return .const lexemes
  else
    match ← captured typeArg with
    | (.const _, lexemes) => return .const lexemes
    | (arg, _) => return arg

def angleArgs : Parser (List GenericArg) := do
  takeOp ['<']
  let args ← listUntil (Ahead.op ['>']) genericArg (takeOp [','])
  takeOp ['>']
  return args

/-! Paths. -/

def projectionRounds (inExpr : Bool) : Nat → Parser (List Segment)
  | 0 => fail
  | rounds + 1 => do
      let first ← segment inExpr
      if ← takeOp? [':', ':'] then return first :: (← projectionRounds inExpr rounds)
      return [first]

/-- A path, or a path through a type. -/
def typePath (inExpr : Bool) : Parser Ty := do
  if ← takeOp? ['<'] then
    let subject ← nested (.ty true)
    let (traitRooted, traitPath) ←
      if ← takeWord? "as" then
        let rooted ← takeOp? [':', ':']
        pure (rooted, ← segments false)
      else pure (false, [])
    takeOp ['>']
    takeOp [':', ':']
    let rest ← projectionRounds inExpr ((← get).rest.length + 1)
    return .projection subject traitRooted traitPath rest
  else
    let rooted ← takeOp? [':', ':']
    return .path rooted (← segments inExpr)

/-- Whether a type is a path without arguments, as the name of a macro is. -/
def isModPath : Ty → Bool
  | .path _ segments => segments.all fun s => !s.hasArgs
  | _ => false

/-! Types. -/

/-- Whether a list of bounds holds more than lifetimes. -/
def namesTrait (bounds : List Bound) : Bool :=
  bounds.any fun
    | .lifetime _ => false
    | _ => true

/-- The bounds of a trait object that begins at the given place. -/
def objectBounds (place : Place) (sums : Bool) : Parser (List Bound) := do
  let bounds ← boundSum sums false false
  if namesTrait bounds then return bounds else refuse place

/-- Whether a bound names no trait: a lifetime, or a list of captured parameters. -/
def Bound.namesNone : Bound → Bool
  | .lifetime _ => true
  | .verbatim (.ident name :: _) => name.text == "use"
  | _ => false

def implType (sums : Bool) : Parser Ty := do
  let place := (← get).place
  takeWord "impl"
  let bounds ← boundSum sums true true
  if bounds.all Bound.namesNone then refuse place
  else return .opaqueImpl bounds

/-- The convention of a foreign function: the word `extern`, and a string if one follows. -/
def abi? : Parser (Option (Option TextLiteral)) := do
  if ← takeWord? "extern" then
    if ← ahead Ahead.textLiteral then return some (some (← takeTextLiteral)) else return some none
  else return none

/-- The dots of a function pointer that takes further arguments, which may have a name. -/
def Ahead.variadic (trees : List TokenTree) : Bool :=
  Ahead.op ['.', '.', '.'] trees
    || ((Ahead.ident trees || Ahead.word "_" trees) && Ahead.op [':'] (Ahead.next trees)
      && Ahead.op ['.', '.', '.'] (Ahead.next (Ahead.next trees)))

/-- A name with a colon after it. The receiver's name counts where a receiver may stand. -/
def Ahead.inputName (receiver : Bool) (trees : List TokenTree) : Bool :=
  (Ahead.ident trees || Ahead.word "_" trees || (receiver && Ahead.word "self" trees))
    && Ahead.op [':'] (Ahead.next trees) && !Ahead.colons (Ahead.next trees)

def Ahead.mutSelf (trees : List TokenTree) : Bool :=
  Ahead.word "mut" trees && Ahead.word "self" (Ahead.next trees)

/-- A parameter of a function pointer. A receiver that may be changed is kept as written. -/
def functionInput (first : Bool) : Parser Input := do
  let _ ← outerAttributes
  let (found, lexemes) ← asWrittenWhen Option.isNone do
    let mutSelf ← if first then ahead Ahead.mutSelf else pure false
    if mutSelf then takeWord "mut"
    let name ←
      if ← ahead (Ahead.inputName first) then
        let name ← takeAnyIdent
        takeOp [':']
        pure (some name)
      else pure none
    if ← ahead fun t => first && name.map (·.text) != some "self" && Ahead.mutSelf t then
      takeWord "mut"
      takeWord "self"
      return none
    else if mutSelf && name.isNone then
      takeWord "self"
      return none
    else
      let ty ← nested (.ty true)
      return if mutSelf then none else some (Input.mk name ty)
  return found.getD (.mk none (.verbatim lexemes))

def functionInputs (first : Bool) : Nat → Parser (List Input × Bool)
  | 0 => fail
  | rounds + 1 => do
      if ← ahead Ahead.atEnd then return ([], false)
      let _ ← outerAttributes
      if ← ahead Ahead.variadic then
        if !(← ahead (Ahead.op ['.', '.', '.'])) then
          let _ ← takeAnyIdent
          takeOp [':']
        takeOp ['.', '.', '.']
        let _ ← takeOp? [',']
        return ([], true)
      let input ← functionInput first
      if ← ahead Ahead.atEnd then return ([input], false)
      takeOp [',']
      let (inputs, variadic) ← functionInputs false rounds
      return (input :: inputs, variadic)

def functionType (binder : Option Binder) : Parser Ty := do
  let isUnsafe ← takeWord? "unsafe"
  let abi ← abi?
  takeWord "fn"
  let (inputs, variadic) ← within .paren do functionInputs true ((← get).rest.length + 1)
  let output ← returnType false
  return .function binder isUnsafe abi inputs variadic output

def addedRounds (another : List TokenTree → Bool) : Nat → Parser (List Bound)
  | 0 => fail
  | rounds + 1 => do
      if ← takeOp? ['+'] then
        if ← ahead another then
          let next ← nested (.bound false false)
          return next :: (← addedRounds another rounds)
      return []

/-- The bounds added to a first one that was already read. -/
def addedBounds (another : List TokenTree → Bool) : Parser (List Bound) := do
  addedRounds another ((← get).rest.length + 1)

/-- The first bound of a sum that begins with a parenthesis, if what stood in it is a bound. -/
def parenBound? : Ty → Option Bound
  | .path rooted segments => some (.trait true false none rooted segments)
  | .object false [.trait _ relaxed binder rooted segments] =>
      some (.trait true relaxed binder rooted segments)
  | .object false [other] => some other
  | _ => none

/-- What stands in parentheses where a type is read: a tuple, a type, or the first bound of a sum. -/
inductive Parenthesized where
  | tuple (elements : List Ty)
  | single (inner : Ty)
  | firstBound (bound : Bound)

def parenthesized : Parser Parenthesized := do
  if ← ahead Ahead.atEnd then return .tuple []
  if ← ahead Ahead.lifetime then return .single (← nested (.ty true))
  if ← ahead (Ahead.op ['?']) then
    match ← traitBound true true with
    | some b => return .firstBound b
    | none => fail
  let first ← nested (.ty true)
  if ← takeOp? [','] then return .tuple (first :: (← commaList (nested (.ty true))))
  return .single first

def parenType (sums : Bool) : Parser Ty := do
  match ← within .paren parenthesized with
  | .tuple elements => return .tuple elements
  | .firstBound first =>
      return .object false (first :: (← addedBounds fun _ => true))
  | .single inner =>
      match parenBound? inner with
      | some first =>
          if ← ahead fun t => sums && Ahead.op ['+'] t then
            return .object false (first :: (← addedBounds fun _ => true))
          else return .paren inner
      | none => return .paren inner

/-- A type that begins with a path: a macro, a sum of bounds, or the path alone. -/
def pathType (sums : Bool) (binder : Option Binder) : Parser Ty := do
  let ((ty, isMacro), lexemes) ← captured do
    let ty ← typePath false
    if ← ahead fun t => isModPath ty && Ahead.op ['!'] t && !Ahead.op ['!', '='] t then
      takeOp ['!']
      let _ ← takeGroup
      return (ty, true)
    else return (ty, false)
  if isMacro then return .verbatim lexemes
  match ty with
  | .path rooted segments =>
      let more ← ahead fun t => sums && Ahead.op ['+'] t
      if binder.isSome || more then
        let first := Bound.trait false false binder rooted segments
        if more then return .object false (first :: (← addedBounds Ahead.bound))
        return .object false [first]
      else return ty
  | _ => return ty

/-- What may follow the binder of a type. -/
def Ahead.bindable (trees : List TokenTree) : Bool :=
  (Ahead.ident trees || Ahead.word "fn" trees || Ahead.word "unsafe" trees
    || Ahead.word "extern" trees || Ahead.pathWord trees) && !Ahead.word "dyn" trees

def Ahead.functionType (trees : List TokenTree) : Bool :=
  Ahead.word "fn" trees || Ahead.word "unsafe" trees || Ahead.word "extern" trees

def Ahead.pathType (trees : List TokenTree) : Bool :=
  Ahead.ident trees || Ahead.pathWord trees || Ahead.colons trees || Ahead.op ['<'] trees

def typeOf (sums : Bool) : Parser Ty := do
  let binder ← binder?
  if binder.isSome && !(← ahead Ahead.bindable) then fail
  if ← ahead (Ahead.opens .paren) then parenType sums
  else if ← ahead Ahead.functionType then functionType binder
  else if ← ahead Ahead.pathType then pathType sums binder
  else if ← ahead (Ahead.word "dyn") then
    let place := (← get).place
    let ((bounds, starred), lexemes) ← asWrittenWhen (·.2) do
      takeWord "dyn"
      let starred ← takeOp? ['*']
      return (← objectBounds place sums, starred)
    return if starred then .verbatim lexemes else .object true bounds
  else if ← ahead (Ahead.opens .bracket) then
    within .bracket do
      let element ← nested (.ty true)
      if ← takeOp? [';'] then
        let (_, length) ← captured (nested (.expr true))
        return .array element length
      else return .slice element
  else if ← takeOp? ['*'] then
    if ← takeWord? "const" then return .pointer false (← nested (.ty false))
    else if ← takeWord? "mut" then return .pointer true (← nested (.ty false))
    else fail
  else if ← takeOp? ['&'] then
    let lifetime ← takeLifetime?
    let isMut ← takeWord? "mut"
    return .reference lifetime isMut (← nested (.ty false))
  else if ← takeOp? ['!'] then return .never
  else if ← ahead (Ahead.word "impl") then implType sums
  else if ← takeWord? "_" then return .infer
  else if ← ahead Ahead.lifetime then
    return .object false (← objectBounds (← get).place true)
  else fail

/-! Generics of declarations. -/

/-- Generic parameters with their brackets, if they stand here. -/
def genericParams : Parser (List GenericParam) := do
  if ← takeOp? ['<'] then
    let params ← listUntil (Ahead.op ['>']) (do
      let _ ← outerAttributes
      if ← ahead (Ahead.word "_") then return .type (← takeAnyIdent) [] else genericParam) (takeOp [','])
    takeOp ['>']
    return params
  else return []

/-- What ends a `where` clause. -/
def Ahead.whereEnd (trees : List TokenTree) : Bool :=
  Ahead.atEnd trees || Ahead.opens .brace trees || Ahead.op [','] trees || Ahead.op [';'] trees
    || (Ahead.op [':'] trees && !Ahead.colons trees) || Ahead.op ['='] trees

def wherePredicate : Parser WherePredicate := do
  if ← ahead fun t => Ahead.lifetime t && Ahead.op [':'] (Ahead.next t) then
    let name ← takeLifetime
    takeOp [':']
    return .lifetime name (← chainUntil ['+'] Ahead.whereEnd takeLifetime)
  else
    let binder ← binder?
    let subject ← nested (.ty true)
    takeOp [':']
    return .type binder subject (← chainUntil ['+'] Ahead.whereEnd (nested (.bound false true)))

/-- A `where` clause, if one stands here. -/
def whereClause : Parser (List WherePredicate) := do
  if ← takeWord? "where" then chainUntil [','] Ahead.whereEnd wherePredicate else return []

end Accessors.Parsing
