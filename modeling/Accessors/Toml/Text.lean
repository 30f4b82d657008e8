import Accessors.Text.Reader

/-!
Strings and keys of TOML documents. A string is basic, with escapes, or literal, and either may run over
several lines. Control characters other than a tab stand in none of them.
-/

namespace Accessors.Toml.Grammar

open Accessors.Text

/-- A character that may stand in a comment, and in strings unless it has a meaning there. -/
def isPlain (c : Char) : Bool :=
  c == '\t' || (0x20 ≤ c.toNat && c.toNat ≤ 0x7e) || 0x80 ≤ c.toNat

def isSpace (c : Char) : Bool := c == ' ' || c == '\t'

def space : Reader Unit := do
  let _ ← Reader.takeWhile isSpace

/-- Takes the end of a line if it stands here. -/
def newline? : Reader Bool := do
  if ← Reader.word? ['\n'] then return true else Reader.word? ['\r', '\n']

def hexValue (c : Char) : Nat :=
  if c.isDigit then c.toNat - '0'.toNat
  else if 'a' ≤ c ∧ c ≤ 'f' then c.toNat - 'a'.toNat + 10
  else c.toNat - 'A'.toNat + 10

def isHex (c : Char) : Bool :=
  c.isDigit || ('a' ≤ c && c ≤ 'f') || ('A' ≤ c && c ≤ 'F')

/-- The character with a code point of so many digits. -/
def codePoint (digits : Nat) : Reader Char := do
  let n := (← Reader.takeCount isHex digits).foldl (fun n c => n * 16 + hexValue c) 0
  if n.isValidChar then return Char.ofNat n else Reader.refuse

/-- What a backslash and the characters after it stand for. -/
def escape : Reader Char := do
  match ← Reader.takeIf fun _ => true with
  | 'b' => return Char.ofNat 8
  | 't' => return '\t'
  | 'n' => return '\n'
  | 'f' => return Char.ofNat 12
  | 'r' => return '\r'
  | '"' => return '"'
  | '\\' => return '\\'
  | 'u' => codePoint 4
  | 'U' => codePoint 8
  | _ => Reader.refuse

/-- A basic string on one line. -/
def basicString : Reader String := do
  Reader.word ['"']
  let chars ← Reader.collect do
    match ← Reader.peek? with
    | some '"' => return none
    | some '\\' =>
        Reader.word ['\\']
        return some (← escape)
    | _ => return some (← Reader.takeIf isPlain)
  Reader.word ['"']
  return String.ofList chars

/-- A literal string on one line. -/
def literalString : Reader String := do
  let quote := Char.ofNat 39
  Reader.word [quote]
  let chars ← Reader.takeWhile fun c => isPlain c && c != quote
  Reader.word [quote]
  return String.ofList chars

/-- The end of a line behind a backslash, with all blank that follows. -/
def lineJoin : Reader Unit := do
  space
  if !(← newline?) then Reader.refuse
  Reader.iterate (fun () => do
    if ← newline? then return some ()
    else if ← Reader.word? [' '] then return some ()
    else if ← Reader.word? ['\t'] then return some ()
    else return none) ()

/-- The quotes here, of which the last three end a string of several lines. Up to two more belong to it; fewer
than three are all text. -/
def quoteRun (quote : Char) : Reader (List Char × Bool) := do
  let quotes ← Reader.takeWhile (· == quote)
  if quotes.length < 3 then return (quotes, false)
  else if quotes.length ≤ 5 then return (quotes.drop 3, true)
  else Reader.refuse

/-- A string of several lines. The end of a line right after its opening is dropped, and every end of a line
is a single line feed. -/
def longString (quote : Char) (escapes : Bool) : Reader String := do
  Reader.word [quote, quote, quote]
  let _ ← newline?
  let (reversed, _) ← Reader.iterate (fun (done, closed) => do
    if closed then return none
    if ← newline? then return some ('\n' :: done, false)
    match ← Reader.peek? with
    | none => Reader.refuse
    | some c =>
        if c = quote then
          let (quotes, closed) ← quoteRun quote
          return some (quotes ++ done, closed)
        else if escapes && c == '\\' then
          Reader.word ['\\']
          match ← Reader.attempt lineJoin with
          | some () => return some (done, false)
          | none => return some ((← escape) :: done, false)
        else return some ((← Reader.takeIf isPlain) :: done, false)) ([], false)
  return String.ofList reversed.reverse

/-- A string of any kind. -/
def string : Reader String := do
  let quote := Char.ofNat 39
  if ← Reader.ahead ['"', '"', '"'] then longString '"' true
  else if ← Reader.ahead ['"'] then basicString
  else if ← Reader.ahead [quote, quote, quote] then longString quote false
  else literalString

def isBareKey (c : Char) : Bool := c.isAlphanum || c == '_' || c == '-'

def simpleKey : Reader String := do
  match ← Reader.peek? with
  | some '"' => basicString
  | some c =>
      if c = Char.ofNat 39 then literalString
      else
        let first ← Reader.takeIf isBareKey
        return String.ofList (first :: (← Reader.takeWhile isBareKey))
  | none => Reader.refuse

/-- The longest dotted key, in parts, and the deepest nesting of values. -/
def deepest : Nat := 79

/-- A key with its parts, and the blank around them. -/
def key : Reader (List String) := do
  let part : Reader String := do
    space
    let name ← simpleKey
    space
    return name
  let first ← part
  let more ← Reader.collect do
    if ← Reader.word? ['.'] then return some (← part) else return none
  if more.length < deepest then return first :: more else Reader.refuse

end Accessors.Toml.Grammar
