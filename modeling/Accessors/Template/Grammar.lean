import Accessors.Template.ExprGrammar

/-!
The grammar of templates: text with tags in it. Where a tag stands decides which tags it may hold; a library
and a parent are named at the top only.
-/

namespace Accessors.Template.Grammar

open Accessors.Text

/-- What surrounds a part of a template. -/
inductive Place where
  | top
  | blockBody
  | macroBody
  | loopBody
  | filteredBody
  deriving DecidableEq, Repr

/-- A pair of delimiters, which trim with a minus sign inside; answers what stands between and the trimmed
sides. -/
def delimited {α : Type} (opening closing : List Char) (inner : Reader α) : Reader (Edges × α) := do
  Reader.word opening
  let left ← Reader.word? ['-']
  let a ← inner
  space
  let right ← Reader.word? ['-']
  Reader.word closing
  return (⟨left, right⟩, a)

def openTag : List Char := ['\x7b', '%']
def closeTag : List Char := ['%', '\x7d']
def openOutput : List Char := ['\x7b', '\x7b']
def closeOutput : List Char := ['\x7d', '\x7d']
def openComment : List Char := ['\x7b', '#']
def closeComment : List Char := ['#', '\x7d']

def tag {α : Type} (inner : Reader α) : Reader (Edges × α) := delimited openTag closeTag inner

/-- A tag with a word and nothing else. -/
def wordTag (w : String) : Reader Edges := do
  return (← tag (keyword w)).1

/-- A tag that ends a body and may repeat its name. -/
def endTag (w : String) : Reader Edges := do
  let (edges, _) ← tag do
    keyword w
    let _ ← Reader.attempt name
  return edges

/-- Text up to the end of a comment. -/
def commentText : Nat → Reader Unit
  | 0 => Reader.refuse
  | rounds + 1 => do
      if ← Reader.ahead closeComment then return ()
      else if ← Reader.ahead ('-' :: closeComment) then return ()
      else
        let _ ← Reader.takeIf fun _ => true
        commentText rounds

def comment : Reader Node := do
  let (edges, _) ← delimited openComment closeComment do
    space
    commentText ((← get).length + 1)
  return .comment edges

/-- Text up to the next tag; there is some. -/
def text : Reader Node := do
  let chars ← Reader.collect do
    let here ← get
    if openTag.isPrefixOf here || openOutput.isPrefixOf here || openComment.isPrefixOf here then return none
    else Reader.attempt (Reader.takeIf fun _ => true)
  if chars.isEmpty then Reader.refuse else return .text (String.ofList chars)

def output (r : Rules) : Reader Node := do
  let (edges, expr) ← delimited openOutput closeOutput (argument r)
  return .output edges expr

def superCall : Reader Node := do
  let _ ← delimited openOutput closeOutput (keyword "super()")
  return .super

def assignment (r : Rules) (global : Bool) : Reader Node := do
  let (edges, assigned, value) ← tag do
    keyword (if global then "set_global" else "set")
    let assigned ← name
    sign ['=']
    return (assigned, ← argument r)
  return .assign edges global assigned value

def insertion : Reader Node := do
  let (edges, files, ignoreMissing) ← tag do
    keyword "include"
    let files ← Reader.orElse (do return [← quoted]) do
      sign ['[']
      let files ← Reader.attempt (commaSeparated quoted)
      let _ ← sign? [',']
      sign [']']
      return files.getD []
    let ignoreMissing ← Reader.attempt do
      keyword "ignore"
      keyword "missing"
    return (files, ignoreMissing.isSome)
  return .insertion edges files ignoreMissing

def library : Reader Node := do
  let (edges, file, library) ← tag do
    keyword "import"
    let file ← quoted
    keyword "as"
    return (file, ← name)
  return .library edges file library

def parent : Reader Node := do
  let (edges, file) ← tag do
    keyword "extends"
    quoted
  return .parent edges file

/-- Text that is not looked into, up to its end tag. -/
def raw : Reader Node := do
  let opening ← wordTag "raw"
  let chars ← Reader.collect do
    let here ← get
    match ← Reader.attempt (wordTag "endraw") with
    | some _ =>
        set here
        return none
    | none => return some (← Reader.takeIf fun _ => true)
  return .raw opening (String.ofList chars) (← wordTag "endraw")

/-- The body of some tag, up to what is no part of it. -/
abbrev Bodies := Place → Reader (List Node)

def branch (r : Rules) (bodies : Bodies) (place : Place) : Reader Node := do
  let arm (w : String) : Reader Arm := do
    let (edges, condition) ← tag do
      keyword w
      r.logic
    return .mk edges condition (← bodies place)
  let first ← arm "if"
  let more ← many (arm "elif")
  let otherwise ← Reader.attempt do
    let edges ← wordTag "else"
    return Otherwise.mk edges (← bodies place)
  return .branch (first :: more) otherwise (← wordTag "endif")

def loop (r : Rules) (bodies : Bodies) : Reader Node := do
  let (opening, first, second, container) ← tag do
    keyword "for"
    let first ← name
    let second ← Reader.attempt do
      sign [',']
      name
    keyword "in"
    return (first, second, ← Reader.orElse (filteredArithmetic r) (filteredArray r (argument r)))
  let body ← bodies .loopBody
  let empty ← Reader.attempt do
    let _ ← wordTag "else"
    bodies .loopBody
  let closing ← wordTag "endfor"
  return match second with
  | some value => .loop opening (some first) value container body empty closing
  | none => .loop opening none first container body empty closing

def filtered (r : Rules) (bodies : Bodies) : Reader Node := do
  let (opening, filter) ← tag do
    keyword "filter"
    Reader.orElse (call r) do return .mk (← name) []
  let body ← bodies .filteredBody
  return .filtered opening filter body (← wordTag "endfilter")

def block (bodies : Bodies) : Reader Node := do
  let (opening, block) ← tag do
    keyword "block"
    name
  let body ← bodies .blockBody
  return .block opening block body (← endTag "endblock")

/-- A parameter of a macro, with a literal as its default. -/
def macroParam : Reader (String × Option Operand) := do
  let param ← name
  let default ← Reader.attempt do
    sign ['=']
    choice [boolean, do return .string (← quoted), float, integer]
  return (param, default)

def macroDef (bodies : Bodies) : Reader Node := do
  let (opening, defined, params) ← tag do
    keyword "macro"
    let defined ← name
    sign ['(']
    let params ← Reader.attempt (commaSeparated macroParam)
    sign [')']
    return (defined, params.getD [])
  let body ← bodies .macroBody
  return .macroDef opening defined params body (← endTag "endmacro")

/-- The readers for what may stand at a place. -/
def nodeReaders (r : Rules) (bodies : Bodies) (place : Place) : List (Reader Node) :=
  let here (allowed : Bool) (p : Reader Node) : List (Reader Node) := if allowed then [p] else []
  here (place = .blockBody) superCall
    ++ [insertion, output r, comment, assignment r false, assignment r true]
    ++ here (place = .top) library
    ++ here (place = .top) (macroDef bodies)
    ++ here (place = .top || place = .blockBody || place = .filteredBody) (block bodies)
    ++ here (place = .loopBody) (do return .leave (← wordTag "break"))
    ++ here (place = .loopBody) (do return .next (← wordTag "continue"))
    ++ [branch r bodies place, loop r bodies, filtered r bodies, raw, text]

/-- Bodies up to a level of nesting. -/
def bodies (r : Rules) : (levels : Nat) → Bodies
  | 0, _ => Reader.refuse
  | levels + 1, place => many (choice (nodeReaders r (bodies r levels) place))

/-- A whole template. A parent is named first, comments and white space apart. -/
def template (r : Rules) (levels : Nat) : Reader (List Node) := do
  let inherited ← Reader.attempt do
    space
    let comments ← many do
      let node ← comment
      space
      return node
    return comments ++ [← parent]
  return inherited.getD [] ++ (← bodies r levels .top)

/-- The nodes of a template before anything is trimmed. -/
def parse? (source : String) : Option (List Node) :=
  let chars := source.toList
  Reader.whole (template (rules (chars.length + 1)) (chars.length + 1)) chars

end Accessors.Template.Grammar
