import Accessors.Parsing.Rules

/-!
The parsers that the grammar is put together from: those that read one token, groups, what is read under a
condition, and repetition.
-/

namespace Accessors.Parsing

variable {α β : Type}

/-- Whether what is ahead are as asked. -/
def ahead (look : List TokenTree → Bool) : Parser Bool :=
  return look (← get).rest

def refuse (place : Place) : Parser α := Parser.plain fun _ => .error place

/-- Refuses the next token. -/
def fail : Parser α := Parser.plain fun c => .error c.place

/-- Passes over so many tokens and keeps the given lexemes as read. -/
def consume (count : Nat) (lexemes : List Lexeme) : Parser Unit :=
  modify (Cursor.skip count lexemes)

/-- An operator in canonical writing. -/
def opLexemes : List Char → List Lexeme
  | [] => []
  | [c] => [.punct c false]
  | c :: more => .punct c true :: opLexemes more

def takeOp (chars : List Char) : Parser Unit := do
  if ← ahead (Ahead.op chars) then consume chars.length (opLexemes chars) else fail

def takeOp? (chars : List Char) : Parser Bool := do
  if ← ahead (Ahead.op chars) then
    consume chars.length (opLexemes chars)
    return true
  else return false

def takeAnyIdent : Parser Ident := do
  match (← get).rest with
  | .leaf (.ident name) :: _ =>
      consume 1 [.ident name]
      return name
  | _ => fail

def takeWord (w : String) : Parser Unit := do
  if ← ahead (Ahead.word w) then
    let _ ← takeAnyIdent
  else fail

def takeWord? (w : String) : Parser Bool := do
  if ← ahead (Ahead.word w) then
    let _ ← takeAnyIdent
    return true
  else return false

def takeIdent : Parser Ident := do
  if ← ahead Ahead.ident then takeAnyIdent else fail

def takeLifetime : Parser Lifetime := do
  match (← get).rest with
  | .leaf (.lifetime name) :: _ =>
      consume 1 [.lifetime name]
      return name
  | _ => fail

def takeLifetime? : Parser (Option Lifetime) := do
  if ← ahead Ahead.lifetime then return some (← takeLifetime) else return none

/-- Reads a literal; a minus sign is a lexeme of its own. -/
def takeLiteral : Parser Unit := do
  match (← get).rest with
  | .leaf (.literal name) :: _ => consume 1 [.literal name]
  | .leaf (.ident name) :: _ =>
      if name.text == "true" || name.text == "false" then consume 1 [.ident name] else fail
  | .leaf (.punct '-' _) :: .leaf (.literal name) :: _ =>
      if Literal.isNumber name.text then consume 2 [.punct '-' false, .literal name] else fail
  | _ => fail

/-- A text literal. -/
def takeTextLiteral : Parser TextLiteral := do
  match (← get).rest with
  | .leaf (.literal name) :: _ =>
      if isText : Literal.isText name.text = true then
        consume 1 [.literal name]
        return ⟨name, isText⟩
      else fail
  | _ => fail

/-- Runs a parser from another cursor and makes of its answer what is asked. -/
def aside (start : Cursor → Cursor) (finish : Cursor → Except Place (α × Cursor) → Except Place (β × Cursor))
    (p : Parser α) : Parser β where
  run r c := (p.run r (start c)).map (finish c)
  stable := by
    intro deep shallow further c result answered
    cases found : p.run shallow (start c) with
    | none =>
        rw [found] at answered
        cases answered
    | some inner =>
        rw [p.stable further (start c) inner found]
        rw [found] at answered
        exact answered

/-- Reads the trees inside a group. -/
def enclosed (d : Delimiter) (inside after : List TokenTree) (p : Parser α) : Parser α :=
  aside (fun _ => .start inside)
    (fun c answer =>
      match answer with
      | .error place => .error (Cursor.outside after place)
      | .ok (a, inner) => .ok (a, c.leave d after inner)) p

/-- Reads a group with the given delimiters. -/
def within (d : Delimiter) (inner : Parser α) : Parser α := do
  match (← get).rest with
  | .group e inside :: after => if d = e then enclosed d inside after inner else fail
  | _ => fail

/-- Passes over everything up to the end of the group one is in, as it was written. -/
def skipToClosing : Parser Unit :=
  modify fun c => c.skip c.rest.length (TokenTree.lexemesAll c.rest)

/-- Reads a group with any delimiters without looking into it, and answers whether it is braces. -/
def takeGroup : Parser Bool := do
  match (← get).rest with
  | .group d inside :: _ =>
      consume 1 (TokenTree.group d inside).lexemes
      return d == .brace
  | _ => fail

/-- Runs a parser and gives back the cursor if it fails. -/
def attempt (p : Parser α) : Parser (Option α) :=
  aside id
    (fun c answer =>
      match answer with
      | .ok (a, c') => .ok (some a, c')
      | .error _ => .ok (none, c)) p

/-- Whether a parser would succeed from here; the cursor stays. -/
def succeeds (p : Parser α) : Parser Bool :=
  aside id
    (fun c answer =>
      match answer with
      | .ok _ => .ok (true, c)
      | .error _ => .ok (false, c)) p

/-- What a parser reads, in canonical writing. -/
def captured (p : Parser α) : Parser (α × List Lexeme) := do
  let before := (← get).read
  modify fun c => { c with read := [] }
  let a ← p
  let read := (← get).read
  modify fun c => { c with read := read ++ before }
  return (a, read.reverse)

/-- What a parser reads, as it was written. If the answer asks for it, it is also kept as read that way. -/
def asWrittenWhen (keep : α → Bool) (p : Parser α) : Parser (α × List Lexeme) := do
  let before ← get
  let a ← p
  let after ← get
  let lexemes := TokenTree.lexemesAll (before.rest.take (before.rest.length - after.rest.length))
  if keep a then set { after with read := lexemes.reverse ++ before.read }
  return (a, lexemes)

/-- What a parser reads, as it was written. -/
def asWritten (p : Parser α) : Parser (α × List Lexeme) :=
  asWrittenWhen (fun _ => true) p

/-! Repetition. The tokens ahead bound the number of rounds, since each round reads one. -/

def listRounds (stop : List TokenTree → Bool) (p : Parser α) (separator : Parser Unit) :
    Nat → Parser (List α)
  | 0 => fail
  | rounds + 1 => do
      if ← ahead stop then return []
      let a ← p
      if ← ahead stop then return [a]
      separator
      return a :: (← listRounds stop p separator rounds)

/-- A list up to a stop; a separator may stand before the stop. -/
def listUntil (stop : List TokenTree → Bool) (p : Parser α) (separator : Parser Unit) :
    Parser (List α) := do
  listRounds stop p separator ((← get).rest.length + 1)

/-- The rest of a group as a list with commas. -/
def commaList (p : Parser α) : Parser (List α) :=
  listUntil Ahead.atEnd p (takeOp [','])

/-- The rest of a group as a list without separators. -/
def plainList (p : Parser α) : Parser (List α) :=
  listUntil Ahead.atEnd p (pure ())

def chainRounds (separator : List Char) (stop : List TokenTree → Bool) (p : Parser α) :
    Nat → Parser (List α)
  | 0 => fail
  | rounds + 1 => do
      if ← ahead stop then return []
      let a ← p
      if ← takeOp? separator then return a :: (← chainRounds separator stop p rounds)
      return [a]

/-- A list that ends at a stop or where no separator follows. -/
def chainUntil (separator : List Char) (stop : List TokenTree → Bool) (p : Parser α) :
    Parser (List α) := do
  chainRounds separator stop p ((← get).rest.length + 1)

def whileRounds (look : List TokenTree → Bool) (p : Parser Unit) : Nat → Parser Unit
  | 0 => fail
  | rounds + 1 => do
      if ← ahead look then
        p
        whileRounds look p rounds

/-- Repeats a parser as long as what is ahead are as asked. -/
def whileAhead (look : List TokenTree → Bool) (p : Parser Unit) : Parser Unit := do
  whileRounds look p ((← get).rest.length + 1)

def iterateRounds (step : α → Parser (Option α)) : Nat → α → Parser α
  | 0, _ => fail
  | rounds + 1, a => do
      match ← step a with
      | some b => iterateRounds step rounds b
      | none => return a

/-- Repeats a step on its own result until it has none. -/
def iterate (step : α → Parser (Option α)) (a : α) : Parser α := do
  iterateRounds step ((← get).rest.length + 1) a

/-- What a parser answers on all the given trees. -/
def whole (p : Parser α) (r : Rules) (trees : List TokenTree) : Option (Except Place α) :=
  (p.run r (.start trees)).map fun answer =>
    match answer with
    | .error place => .error place
    | .ok (a, c) =>
        match c.leftover with
        | some place => .error place
        | none => .ok a

end Accessors.Parsing
