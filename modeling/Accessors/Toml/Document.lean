import Accessors.Toml.Date
import Accessors.Toml.Number
import Accessors.Toml.Table

/-!
TOML documents. A document is read into assignments and headers first, and the tables are put together from
these.
-/

namespace Accessors.Toml.Grammar

open Accessors.Text

/-- A comment up to the end of its line. -/
def comment? : Reader Bool := do
  if ← Reader.word? ['#'] then
    let _ ← Reader.takeWhile isPlain
    return true
  else return false

/-- The end of a line, or of the document. -/
def lineEnd : Reader Unit := do
  if !(← newline?) && !(← Reader.atEnd) then Reader.refuse

/-- What may follow on the line of a value or a header. -/
def lineRest : Reader Unit := do
  space
  let _ ← comment?
  lineEnd

/-- Blank, comments and ends of lines. -/
def gap : Reader Unit :=
  Reader.iterate (fun () => do
    if ← newline? then return some ()
    else if ← Reader.word? [' '] then return some ()
    else if ← Reader.word? ['\t'] then return some ()
    else if ← comment? then
      if !(← newline?) then Reader.refuse
      return some ()
    else return none) ()

/-- An array, given the reader of its elements. A comma may follow the last. -/
def array (element : Reader Toml) : Reader Toml := do
  Reader.word ['[']
  let (reversed, _) ← Reader.iterate (fun (done, more) => do
    gap
    if !more then return none
    if ← Reader.ahead [']'] then return none
    let value ← element
    gap
    return some (value :: done, ← Reader.word? [','])) ([], true)
  Reader.word [']']
  return .array reversed.reverse

/-- A key and its value. -/
def assignment (value : Reader Toml) : Reader Assignment := do
  let path ← key
  Reader.word ['=']
  space
  let value ← value
  match path.getLast? with
  | some last => return ⟨path.dropLast, last, value⟩
  | none => Reader.refuse

/-- A table on one line, given the reader of its values. -/
def inlineTable (value : Reader Toml) : Reader Toml := do
  Reader.word ['\x7b']
  space
  let assignments ←
    if ← Reader.ahead ['\x7d'] then pure []
    else
      let first ← assignment value
      space
      let more ← Reader.collect do
        if ← Reader.word? [','] then
          let next ← assignment value
          space
          return some next
        else return none
      pure (first :: more)
  Reader.word ['\x7d']
  match Entries.assignAll [] assignments with
  | some entries => return .table (entriesToml entries)
  | none => Reader.refuse

/-- A value, given the reader of the values inside an array or a table; without one it holds no others. -/
def valueOver (inner : Option (Reader Toml)) : Reader Toml := do
  match ← Reader.peek? with
  | none => Reader.refuse
  | some '"' => return .string (← string)
  | some '[' =>
      match inner with
      | none => Reader.refuse
      | some inner => array inner
  | some '\x7b' =>
      match inner with
      | none => Reader.refuse
      | some inner => inlineTable inner
  | some 't' =>
      Reader.word ['t', 'r', 'u', 'e']
      return .boolean true
  | some 'f' =>
      Reader.word ['f', 'a', 'l', 's', 'e']
      return .boolean false
  | some c =>
      if c = Char.ofNat 39 then return .string (← string)
      else Reader.orElse date (Reader.orElse float integer)

/-- A value with so many levels of arrays and tables. -/
def value : (levels : Nat) → Reader Toml
  | 0 => valueOver none
  | levels + 1 => valueOver (some (value levels))

/-- A header in its brackets. -/
def header : Reader Header := do
  let element ← Reader.word? ['[', '[']
  if !element then Reader.word ['[']
  let path ← key
  Reader.word (if element then [']', ']'] else [']'])
  match path.getLast? with
  | some last => return if element then .element path.dropLast last else .table path.dropLast last
  | none => Reader.refuse

/-- One line with a meaning. -/
inductive Line where
  | header (header : Header)
  | assignment (assignment : Assignment)

/-- The lines of a document that have a meaning. -/
def lines : Reader (List Line) := do
  let found ← Reader.collect do
    space
    if ← Reader.atEnd then return none
    else if ← comment? then
      lineEnd
      return some none
    else if ← newline? then return some none
    else if ← Reader.ahead ['['] then
      let header ← header
      lineRest
      return some (some (Line.header header))
    else
      let assignment ← assignment (value deepest)
      lineRest
      return some (some (Line.assignment assignment))
  return found.filterMap id

end Accessors.Toml.Grammar

namespace Accessors.Toml

/-- Adds the parts of a document from a header on. -/
def addParts (entries : Entries) : Option Header → List Assignment → List Grammar.Line → Option Entries
  | none, done, [] => entries.assignAll done.reverse
  | some header, done, [] => entries.addPart header done.reverse
  | open?, done, .assignment a :: rest => addParts entries open? (a :: done) rest
  | none, done, .header next :: rest => do addParts (← entries.assignAll done.reverse) (some next) [] rest
  | some header, done, .header next :: rest => do
      addParts (← entries.addPart header done.reverse) (some next) [] rest

/-- The table a document stands for. A byte order mark in front is passed over. -/
def parse (text : String) : Option (List (String × Toml)) := do
  let chars := text.toList
  let body := if chars.head? = some (Char.ofNat 0xfeff) then chars.drop 1 else chars
  let entries ← addParts [] none [] (← Text.Reader.whole Grammar.lines body)
  return entriesToml entries

end Accessors.Toml
