import Accessors.Token.Basic

/-!
Token trees. The grammar never looks past the delimiters around it, so what it reads is a list of trees: a
lexeme, or a bracketed group with the trees inside it.
-/

namespace Accessors

inductive TokenTree where
  /-- A lexeme other than a delimiter. -/
  | leaf (lexeme : Lexeme)
  | group (delimiter : Delimiter) (inside : List TokenTree)
  deriving Inhabited

namespace TokenTree

mutual

/-- The lexemes of a tree, in order. -/
def lexemes : TokenTree → List Lexeme
  | leaf lexeme => [lexeme]
  | group d inside => .opening d :: (lexemesAll inside ++ [.closing d])

def lexemesAll : List TokenTree → List Lexeme
  | [] => []
  | tree :: rest => tree.lexemes ++ lexemesAll rest

end

mutual

/-- How many lexemes a tree holds. -/
def size : TokenTree → Nat
  | leaf _ => 1
  | group _ inside => sizeAll inside + 2

def sizeAll : List TokenTree → Nat
  | [] => 0
  | tree :: rest => tree.size + sizeAll rest

end

@[simp] theorem sizeAll_nil : sizeAll [] = 0 := rfl

@[simp] theorem sizeAll_cons (tree : TokenTree) (rest : List TokenTree) :
    sizeAll (tree :: rest) = tree.size + sizeAll rest :=
  rfl

theorem sizeAll_append (front back : List TokenTree) :
    sizeAll (front ++ back) = sizeAll front + sizeAll back := by
  induction front with
  | nil => simp
  | cons tree rest ih =>
      rw [List.cons_append, sizeAll_cons, sizeAll_cons, ih]
      omega

@[simp] theorem lexemesAll_nil : lexemesAll [] = [] := rfl

@[simp] theorem lexemesAll_cons (tree : TokenTree) (rest : List TokenTree) :
    lexemesAll (tree :: rest) = tree.lexemes ++ lexemesAll rest :=
  rfl

theorem lexemesAll_append (front back : List TokenTree) :
    lexemesAll (front ++ back) = lexemesAll front ++ lexemesAll back := by
  induction front with
  | nil => rfl
  | cons tree rest ih => rw [List.cons_append, lexemesAll_cons, lexemesAll_cons, ih, List.append_assoc]

/-- Trees read backwards: those of the group one is in so far, and those after the groups around it. -/
structure Forest where
  inside : List TokenTree
  around : List (List TokenTree)

/-- Puts a lexeme in front. -/
def Forest.push (lexeme : Lexeme) (forest : Forest) : Forest :=
  match lexeme with
  | .closing _ => ⟨[], forest.inside :: forest.around⟩
  | .opening d =>
      match forest.around with
      | after :: around => ⟨.group d forest.inside :: after, around⟩
      | [] => ⟨[.group d forest.inside], []⟩
  | other => ⟨.leaf other :: forest.inside, forest.around⟩

/-- The trees of lexemes in which every delimiter has its partner. -/
def ofLexemes (lexemes : List Lexeme) : List TokenTree :=
  (lexemes.foldr Forest.push ⟨[], []⟩).inside

end TokenTree

end Accessors
