import Accessors.Template.Value

/-!
Templates as trees. An expression is an operand with filters after it, perhaps negated. A tag remembers at
which of its sides the text next to it is trimmed.
-/

namespace Accessors.Template

inductive MathOp where
  | add
  | subtract
  | multiply
  | divide
  | remainder
  deriving DecidableEq, Repr, Inhabited

inductive Comparison where
  | less
  | lessEq
  | greater
  | greaterEq
  | equal
  | unequal
  deriving DecidableEq, Repr, Inhabited

/-- A variable: a name, and keys that are written or are variables themselves. -/
inductive Variable where
  | name (name : String)
  | key (owner : Variable) (key : String)
  | computed (owner : Variable) (key : Variable)
  deriving DecidableEq, Repr, Inhabited

mutual

inductive Expr where
  | mk (operand : Operand) (negated : Bool) (filters : List Call)

inductive Operand where
  | string (text : String)
  | integer (value : Int)
  | float (value : Float)
  | boolean (value : Bool)
  | lookup (path : Variable)
  | joined (parts : List Operand)
  | array (elements : List Expr)
  | call (call : Call)
  | macroCall (library : String) (call : Call)
  | test (subject : Variable) (negated : Bool) (name : String) (args : List Expr)
  | math (op : MathOp) (left right : Expr)
  | compare (op : Comparison) (left right : Expr)
  | and (left right : Expr)
  | or (left right : Expr)
  | contained (negated : Bool) (element container : Expr)

/-- A function, a filter or a macro with its named arguments. -/
inductive Call where
  | mk (name : String) (args : List (String × Expr))

end

instance : Inhabited Operand := ⟨.string ""⟩
instance : Inhabited Expr := ⟨.mk (.string "") false []⟩
instance : Inhabited Call := ⟨.mk "" []⟩

namespace Call

def name : Call → String
  | mk name _ => name

def args : Call → List (String × Expr)
  | mk _ args => args

end Call

namespace Expr

/-- An operand by itself. -/
def plain (operand : Operand) : Expr := mk operand false []

def operand : Expr → Operand
  | mk operand _ _ => operand

def filters : Expr → List Call
  | mk _ _ filters => filters

end Expr

/-- The sides at which a tag trims the text next to it. -/
structure Edges where
  left : Bool
  right : Bool
  deriving DecidableEq, Repr, Inhabited

mutual

inductive Node where
  | text (text : String)
  | output (edges : Edges) (expr : Expr)
  | comment (edges : Edges)
  | raw (opening : Edges) (text : String) (closing : Edges)
  | assign (edges : Edges) (global : Bool) (name : String) (value : Expr)
  | insertion (edges : Edges) (files : List String) (ignoreMissing : Bool)
  | library (edges : Edges) (file name : String)
  | parent (edges : Edges) (file : String)
  | branch (arms : List Arm) (otherwise : Option Otherwise) (closing : Edges)
  | loop (opening : Edges) (key : Option String) (value : String) (container : Expr) (body : List Node)
      (empty : Option (List Node)) (closing : Edges)
  | filtered (opening : Edges) (filter : Call) (body : List Node) (closing : Edges)
  | block (opening : Edges) (name : String) (body : List Node) (closing : Edges)
  | macroDef (opening : Edges) (name : String) (params : List (String × Option Operand))
      (body : List Node) (closing : Edges)
  /-- The block of the same name in the parent. -/
  | super
  /-- Leaves a loop. -/
  | leave (edges : Edges)
  /-- Goes on with the next round of a loop. -/
  | next (edges : Edges)

/-- A condition with its body. -/
inductive Arm where
  | mk (edges : Edges) (condition : Expr) (body : List Node)

/-- The body for when no condition holds. -/
inductive Otherwise where
  | mk (edges : Edges) (body : List Node)

end

instance : Inhabited Node := ⟨.super⟩

end Accessors.Template
