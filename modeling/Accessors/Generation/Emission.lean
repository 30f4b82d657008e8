import Accessors.Crate.Struct
import Accessors.Generation.Error
import Accessors.Text.Blank

/-!
Emitting accessors. A header is written first and then, field by field in order, a blank line and the text of
the accessors. What was written before a fault stays written.

The templates see nothing but the contexts that are built here.
-/

namespace Accessors

open File (Fault)
open Template (Value)

/-- What is emitted into one file. -/
structure EmitRequest where
  structName : String
  generics : Signature.GenericsText
  fields : List FieldDescriptor
  packageName : String
  sourceFile : File.Path
  deriving Inhabited

namespace EmitRequest

/-- What the header template sees. -/
def headerContext (r : EmitRequest) : Value :=
  .object [
    ("package_name", .string r.packageName),
    ("source_file", .string r.sourceFile.text),
    ("struct_name", .string r.structName)]

/-- What the template for a field sees. The accessors are named without the mark of raw identifiers. -/
def fieldContext (r : EmitRequest) (index : Nat) (field : FieldDescriptor) : Value :=
  .object [
    ("accessor_name", .string (unraw field.name)),
    ("field_name", .string field.name),
    ("field_type", .string field.signature),
    ("impl_generics", .string r.generics.implGenerics),
    ("index", .ofNat index),
    ("struct_name", .string r.structName),
    ("type_generics", .string r.generics.typeGenerics),
    ("where_clause", .string r.generics.whereClause)]

/-- The name of a field in messages. -/
def subject (r : EmitRequest) (field : FieldDescriptor) : String := r.structName ++ "." ++ field.name

end EmitRequest

/-! Where text goes. -/

/-- How many bytes wait before a device is written to. -/
def bufferSize : Nat := 8192

/-- Something that takes text. -/
inductive Sink where
  /-- Keeps what it takes, which may have a limit in bytes. -/
  | keeping (limit : Option Nat) (text : String)
  /-- A buffer in front of a device that takes nothing, with the bytes that wait in it. -/
  | refusing (waiting : Nat)
  deriving DecidableEq, Repr, Inhabited

namespace Sink

/-- The sink after a piece of text, if it takes the piece. -/
def put (piece : String) : Sink → Option Sink
  | keeping none text => some (keeping none (text ++ piece))
  | keeping (some limit) text =>
      if text.utf8ByteSize + piece.utf8ByteSize ≤ limit then some (keeping (some limit) (text ++ piece))
      else none
  | refusing waiting =>
      let size := piece.utf8ByteSize
      if waiting + size ≤ bufferSize ∧ size < bufferSize then some (refusing (waiting + size)) else none

def putAll (pieces : List String) (s : Sink) : Option Sink :=
  pieces.foldlM (fun s piece => s.put piece) s

/-- Whether nothing waits that the device would refuse. -/
def isFlushed : Sink → Bool
  | keeping _ _ => true
  | refusing waiting => waiting == 0

def text : Sink → String
  | keeping _ text => text
  | refusing _ => ""

theorem putAll_append (first second : List String) (s : Sink) :
    s.putAll (first ++ second) = (s.putAll first).bind fun s => s.putAll second := by
  simp [putAll, List.foldlM_append]

/-- A sink without a limit takes everything, in order. -/
theorem putAll_keeping (pieces : List String) (text : String) :
    (keeping none text).putAll pieces = some (keeping none (pieces.foldl (· ++ ·) text)) := by
  induction pieces generalizing text with
  | nil => rfl
  | cons piece rest ih => exact ih (text ++ piece)

end Sink

/-! Emission. -/

/-- How far an emission came. -/
structure Emission where
  sink : Sink
  /-- The fields whose rendering was begun, with their positions. -/
  seen : List (Nat × FieldDescriptor)
  fault : Option Error
  deriving Inhabited

/-- Writes pieces of text and goes on, or ends with the fault of the sink. -/
def Emission.write (file : File.Path) (pieces : List String) (sink : Sink)
    (next : Sink → Emission) : Emission :=
  match sink.putAll pieces with
  | some sink => next sink
  | none => ⟨sink, [], some (.io file .deviceFull)⟩

namespace EmitRequest

/-- The pieces that are written for a field. -/
def fieldPieces (accessors : String) : List String := ["\n", Text.trimEnd accessors, "\n"]

/-- The pieces that are written for the header. -/
def headerPieces (header : String) : List String := [Text.trimEnd header, "\n"]

/-- Emits fields, of which the first stands at a position. -/
def emitFields (r : EmitRequest) (registry : Registry) :
    (index : Nat) → List FieldDescriptor → Sink → Emission
  | _, [], sink => ⟨sink, [], none⟩
  | index, field :: rest, sink =>
      let emission : Emission :=
        match registry.render .accessors (r.subject field) (r.fieldContext index field) with
        | .error cause => ⟨sink, [], some (.template cause)⟩
        | .ok accessors =>
            Emission.write r.sourceFile (fieldPieces accessors) sink fun sink =>
              emitFields r registry (index + 1) rest sink
      { emission with seen := (index, field) :: emission.seen }

def emit (r : EmitRequest) (registry : Registry) (sink : Sink) : Emission :=
  match registry.render .header r.packageName r.headerContext with
  | .error cause => ⟨sink, [], some (.template cause)⟩
  | .ok header =>
      Emission.write r.sourceFile (headerPieces header) sink fun sink =>
        r.emitFields registry 0 r.fields sink

/-- The fault of an emission into a file: faults of writing are told of that file. -/
def faultIn (output : File.Path) (e : Emission) : Option Error :=
  match e.fault with
  | some (.io _ fault) => some (.io output fault)
  | some other => some other
  | none => if e.sink.isFlushed then none else some (.io output .deviceFull)

/-- Emits into a file, which is created with the directories above it or emptied. Answers the files after that,
the fields that were begun, and the fault. -/
def emitFile (r : EmitRequest) (registry : Registry) (output : File.Path) (t : File.Tree) :
    File.Tree × List (Nat × FieldDescriptor) × Option Error :=
  let (t, fault) :=
    match output.parent?.filter fun up => !up.isEmpty with
    | some up =>
        let (t, fault) := t.makeDirectories up
        (t, fault.map (Error.io up))
    | none => (t, none)
  match fault with
  | some e => (t, [], some e)
  | none =>
      match t.create output with
      | .error fault => (t, [], some (.io output fault))
      | .ok (t, place) =>
          match t.node? place with
          | some .fullDevice =>
              let e := r.emit registry (.refusing 0)
              (t, e.seen, faultIn output e)
          | _ =>
              let e := r.emit registry (.keeping none "")
              (t.put place (.file (.text e.sink.text)), e.seen, faultIn output e)

end EmitRequest

end Accessors
