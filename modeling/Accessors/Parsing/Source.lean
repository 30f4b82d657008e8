import Accessors.Parsing.Statements
import Accessors.Token.Lexer

/-!
Reading source text: a whole file, a type, a struct, a path or an identifier. The grammar's rules are tied
into a knot here, with a level for each nesting; a rule uses up a token at least every few levels, so the
levels are counted by the tokens.
-/

namespace Accessors.Parsing

/-- What each rule stands for. -/
def Rule.body : {α : Type} → Rule α → Parser α
  | _, .ty sums => typeOf sums
  | _, .bound captures consts => Parsing.bound captures consts
  | _, .angleArgs => Parsing.angleArgs
  | _, .expr structs => exprOf structs
  | _, .unary structs => unaryOf structs
  | _, .operators operand structs base => operatorsOf operand structs base
  | _, .early => earlyOf
  | _, .pattern => patternOf
  | _, .statements => statementsOf
  | _, .item => itemOf
  | _, .useTree rootInside => useTreeOf rootInside

/-- The rules up to a level of nesting. -/
def rules : (levels : Nat) → Rules
  | 0 => ⟨fun _ _ => none⟩
  | levels + 1 => ⟨fun rule c => rule.body.run (rules levels) c⟩

/-- A deeper level answers all that a shallower one does. -/
theorem rules_extend {shallow deep : Nat} (below : shallow ≤ deep) :
    (rules deep).Extends (rules shallow) := by
  induction shallow generalizing deep with
  | zero =>
      intro α rule c result answered
      cases answered
  | succ shallow ih =>
      intro α rule c result answered
      cases deep with
      | zero => omega
      | succ deep => exact rule.body.stable (ih (Nat.le_of_succ_le_succ below)) c result answered

/-- The levels that suffice for so many tokens. -/
def levelsFor (tokens : Nat) : Nat := 8 * tokens + 64

/-- Where a text is refused that so many of its last tokens follow. -/
def placeOf (tokens : List Token) (left : Place) : Pos :=
  match tokens.drop (tokens.length - left) with
  | token :: _ => token.pos
  | [] => Pos.start

/-- What a parser answers on all tokens of a text. -/
def parseTokens {α : Type} (p : Parser α) (tokens : List Token) : Except Pos α :=
  match whole p (rules (levelsFor tokens.length)) (TokenTree.ofLexemes (tokens.map (·.lexeme))) with
  | some (.ok a) => .ok a
  | some (.error left) => .error (placeOf tokens left)
  | none => .error Pos.start

/-- Reads a whole text by a rule. -/
def parse {α : Type} (p : Parser α) (text : String) : Except Pos α := do
  parseTokens p (← Lexer.tokens text)

def fileItems (text : String) : Except Pos (List Item) :=
  parse (do
    let _ ← innerAttributes
    plainList (nested .item)) (Lexer.fileBody text)

def typeText (text : String) : Except Pos Ty :=
  parse (nested (.ty true)) text

/-- A struct with its attributes and visibility. -/
def structText (text : String) : Except Pos StructDecl :=
  parse (do
    let _ ← outerAttributes
    let _ ← visibility
    structItem) text

/-- A path: whether a `::` leads it, and its segments. -/
def pathText (text : String) : Except Pos (Bool × List Segment) :=
  parse (do
    let rooted ← takeOp? [':', ':']
    return (rooted, ← segments false)) text

/-- Whether a text is one identifier and no reserved word. -/
def isIdentText (text : String) : Bool :=
  (parse takeIdent text).isOk

end Accessors.Parsing
