import Accessors.Decl.Item
import Accessors.Parsing.Cursor

/-!
The rules of the grammar that refer to each other, and parsers, which are written over them. A parser does
not know how the rules are carried out: it is given a level of them, and the rules of one level more are the
same grammar written over the rules below.

That a deeper level changes no answer, once there is one, is a part of every parser. So it never has to be
proved of the grammar, and a text has one reading, whatever the level at which it was read.
-/

namespace Accessors.Parsing

/-- What the grammar asks of an expression that was read. -/
inductive ExprKind where
  | range
  /-- A comparison, which may not be continued by another. -/
  | comparison
  /-- An expression that ends a statement or a match arm by its own closing brace. -/
  | blockLike
  | bracedMacro
  | plain
  deriving DecidableEq, Repr, Inhabited

/-- What the grammar asks of a pattern that was read. -/
inductive PatternKind where
  | rest
  /-- A range with an end missing, at a place. -/
  | halfRange (place : Place)
  | plain
  deriving DecidableEq, Repr, Inhabited

/-- How tightly an operator binds, loosest first. -/
inductive Precedence where
  | jump
  | assign
  | range
  | or
  | and
  | compare
  | bitOr
  | bitXor
  | bitAnd
  | shift
  | sum
  | product
  | cast
  deriving DecidableEq, Repr, Inhabited

def Precedence.rank : Precedence → Nat
  | jump => 0
  | assign => 1
  | range => 2
  | or => 3
  | and => 4
  | compare => 6
  | bitOr => 7
  | bitXor => 8
  | bitAnd => 9
  | shift => 10
  | sum => 11
  | product => 12
  | cast => 13

/-- The rules that nest, by what they answer. -/
inductive Rule : Type → Type where
  /-- A type; the flag allows a sum of bounds without parentheses. -/
  | ty (sums : Bool) : Rule Ty
  /-- A bound; the flags allow a list of captured parameters and a constant trait. -/
  | bound (captures consts : Bool) : Rule Bound
  /-- Arguments in angle brackets. -/
  | angleArgs : Rule (List GenericArg)
  /-- An expression; the flag allows a struct literal without parentheses. -/
  | expr (structs : Bool) : Rule ExprKind
  /-- An expression without binary operators outside brackets. -/
  | unary (structs : Bool) : Rule ExprKind
  /-- The operators after an operand, from a precedence on. -/
  | operators (operand : ExprKind) (structs : Bool) (base : Precedence) : Rule ExprKind
  /-- An expression at the front of a statement or a match arm. -/
  | early : Rule ExprKind
  /-- A pattern without alternatives outside brackets. -/
  | pattern : Rule PatternKind
  /-- The statements of a block, up to its end. -/
  | statements : Rule Unit
  | item : Rule Item
  /-- A `use` tree; none if a leading `::` stands inside its braces. The flag allows that. -/
  | useTree (rootInside : Bool) : Rule (Option UseTree)

/-- What reading answers: the place of a failure, or a result with the cursor after it. There is no answer
where the text nests deeper than the rules at hand. -/
abbrev Answer (α : Type) := Option (Except Place (α × Cursor))

/-- How the rules are carried out up to some level. -/
structure Rules where
  answer : {α : Type} → Rule α → Cursor → Answer α

/-- Rules that answer wherever others do, and the same. -/
def Rules.Extends (deep shallow : Rules) : Prop :=
  ∀ {α : Type} (rule : Rule α) (c : Cursor) (result : Except Place (α × Cursor)),
    shallow.answer rule c = some result → deep.answer rule c = some result

structure Parser (α : Type) where
  run : Rules → Cursor → Answer α
  /-- A deeper level of the rules changes no answer. -/
  stable : ∀ {deep shallow : Rules}, deep.Extends shallow →
    ∀ c result, run shallow c = some result → run deep c = some result

namespace Parser

variable {α β : Type}

/-- A parser that needs no rules. -/
def plain (f : Cursor → Except Place (α × Cursor)) : Parser α where
  run _ c := some (f c)
  stable _ _ _ answered := answered

def pure (a : α) : Parser α := plain fun c => .ok (a, c)

/-- What comes after the answer of a first parser. -/
def andThen (answer : Answer α) (next : α → Cursor → Answer β) : Answer β :=
  match answer with
  | none => none
  | some (.error place) => some (.error place)
  | some (.ok (a, c)) => next a c

def bind (p : Parser α) (next : α → Parser β) : Parser β where
  run r c := andThen (p.run r c) fun a c' => (next a).run r c'
  stable := by
    intro deep shallow further c result answered
    cases first : p.run shallow c with
    | none =>
        rw [first] at answered
        cases answered
    | some found =>
        rw [first] at answered
        rw [p.stable further c found first]
        match found with
        | .error place => exact answered
        | .ok (a, c') => exact (next a).stable further c' result answered

instance : Monad Parser where
  pure := pure
  bind := bind

instance : MonadStateOf Cursor Parser where
  get := plain fun c => .ok (c, c)
  set c := plain fun _ => .ok ((), c)
  modifyGet f := plain fun c => .ok (f c)

end Parser

/-- A rule, as the level at hand carries it out. -/
def nested {α : Type} (rule : Rule α) : Parser α where
  run r c := r.answer rule c
  stable further c result answered := further rule c result answered

end Accessors.Parsing
