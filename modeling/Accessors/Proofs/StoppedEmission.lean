import Accessors.Proofs.OutputEffect

/-!
Where an emission stops. Fields are emitted one after the other, so what is emitted of a list of fields is what
is emitted of its front, followed by the rest unless the front ended in a fault. A field that does not render ends
the emission there: it has been announced, nothing of it is written, and what is written is the file of a request
that has only the fields before it. A sink with a limit differs from one without only in that it refuses the piece
that would pass the limit.
-/

namespace Accessors

open File (Path Tree Fault)

/-! Limits. -/

namespace Sink

/-- A sink with room for all pieces takes them all, and one without that room refuses one of them. -/
theorem put_all_limited {limit : Nat} {before : String} (pieces : List String)
    (fits : before.utf8ByteSize ≤ limit) :
    (keeping (some limit) before).putAll pieces
      = if (before ++ String.join pieces).utf8ByteSize ≤ limit
        then some (keeping (some limit) (before ++ String.join pieces)) else none := by
  induction pieces generalizing before with
  | nil =>
      rw [String.join_nil, String.append_empty, if_pos fits]
      rfl
  | cons piece rest ih =>
      have head : (keeping (some limit) before).putAll (piece :: rest)
          = ((keeping (some limit) before).put piece).bind fun s => s.putAll rest := rfl
      rw [head, String.join_cons, ← String.append_assoc]
      by_cases room : (before ++ piece).utf8ByteSize ≤ limit
      · have taken : (keeping (some limit) before).put piece = some (keeping (some limit) (before ++ piece)) := by
          rw [String.utf8ByteSize_append] at room
          exact if_pos room
        rw [taken]
        exact ih room
      · have refused : (keeping (some limit) before).put piece = none := by
          rw [String.utf8ByteSize_append] at room
          exact if_neg room
        have long : ¬ (before ++ piece ++ String.join rest).utf8ByteSize ≤ limit := by
          rw [String.utf8ByteSize_append]
          omega
        rw [refused, if_neg long]
        rfl

theorem put_all_unlimited (before : String) (pieces : List String) :
    (keeping none before).putAll pieces = some (keeping none (before ++ String.join pieces)) := by
  induction pieces generalizing before with
  | nil =>
      rw [String.join_nil, String.append_empty]
      rfl
  | cons piece rest ih =>
      have head : (keeping none before).putAll (piece :: rest) = (keeping none (before ++ piece)).putAll rest := rfl
      rw [head, ih, String.join_cons, String.append_assoc]

end Sink

/-! One emission after another. -/

/-- Goes on after an emission that ended without a fault. -/
def Emission.andThen (e : Emission) (next : Sink → Emission) : Emission :=
  match e.fault with
  | none => { next e.sink with seen := e.seen ++ (next e.sink).seen }
  | some _ => e

/-- An emission with a field announced before it. -/
def Emission.announcing (index : Nat) (field : FieldDescriptor) (e : Emission) : Emission :=
  { e with seen := (index, field) :: e.seen }

theorem Emission.announcing_and_then (index : Nat) (field : FieldDescriptor) (e : Emission)
    (next : Sink → Emission) :
    (e.announcing index field).andThen next = (e.andThen next).announcing index field := by
  obtain ⟨sink, seen, fault⟩ := e
  cases fault <;> rfl

theorem Emission.write_and_then (file : Path) (pieces : List String) (sink : Sink)
    (first next : Sink → Emission) :
    (Emission.write file pieces sink first).andThen next
      = Emission.write file pieces sink fun sink => (first sink).andThen next := by
  unfold write
  cases sink.putAll pieces <;> rfl

namespace EmitRequest

variable {r : EmitRequest} {registry : Registry} {output : Path} {t : Tree}

/-- What the accessors of a field at a position render to. -/
def rendering (r : EmitRequest) (registry : Registry) (index : Nat) (field : FieldDescriptor) :
    Except TemplateError String :=
  registry.render .accessors (r.subject field) (r.fieldContext index field)

/-- Fields with their positions, of which the first is given. -/
def placed (index : Nat) (fields : List FieldDescriptor) : List (Nat × FieldDescriptor) :=
  (fields.zipIdx index).map Prod.swap

theorem placed_cons (index : Nat) (field : FieldDescriptor) (rest : List FieldDescriptor) :
    placed index (field :: rest) = (index, field) :: placed (index + 1) rest := rfl

/-- The request with its first fields only. -/
def cut (r : EmitRequest) (count : Nat) : EmitRequest := { r with fields := r.fields.take count }

/-- Every field of a list renders where it stands. -/
def Renders (r : EmitRequest) (registry : Registry) (index : Nat) (fields : List FieldDescriptor) : Prop :=
  ∀ place ∈ placed index fields, ∃ accessors, r.rendering registry place.1 place.2 = .ok accessors

theorem renders_cons {index : Nat} {field : FieldDescriptor} {rest : List FieldDescriptor} :
    r.Renders registry index (field :: rest)
      ↔ (∃ accessors, r.rendering registry index field = .ok accessors) ∧ r.Renders registry (index + 1) rest := by
  unfold Renders
  rw [placed_cons, List.forall_mem_cons]

/-- A field is announced and rendered, its pieces are written, and the others follow. -/
theorem emit_fields_cons (index : Nat) (field : FieldDescriptor) (rest : List FieldDescriptor) (sink : Sink) :
    r.emitFields registry index (field :: rest) sink
      = Emission.announcing index field (match r.rendering registry index field with
        | .error cause => ⟨sink, [], some (.template cause)⟩
        | .ok accessors =>
            Emission.write r.sourceFile (fieldPieces accessors) sink fun sink =>
              r.emitFields registry (index + 1) rest sink) := rfl

theorem emit_fields_append (index : Nat) (front back : List FieldDescriptor) (sink : Sink) :
    r.emitFields registry index (front ++ back) sink
      = (r.emitFields registry index front sink).andThen fun sink =>
          r.emitFields registry (index + front.length) back sink := by
  induction front generalizing index sink with
  | nil => rfl
  | cons field rest ih =>
      rw [List.cons_append, emit_fields_cons, emit_fields_cons, Emission.announcing_and_then]
      cases r.rendering registry index field with
      | error cause => rfl
      | ok accessors =>
          have places : index + (field :: rest).length = index + 1 + rest.length := by
            rw [List.length_cons]
            omega
          simp only [ih, Emission.write_and_then, places]

/-- The other fields of a request play no part in the emission of some. -/
theorem emit_fields_cut (count index : Nat) (fields : List FieldDescriptor) (sink : Sink) :
    (r.cut count).emitFields registry index fields sink = r.emitFields registry index fields sink := by
  induction fields generalizing index sink with
  | nil => rfl
  | cons field rest ih =>
      have same : (r.cut count).rendering registry index field = r.rendering registry index field := rfl
      rw [emit_fields_cons, emit_fields_cons, same]
      simp only [ih]
      rfl

/-- Fields that render are all announced, unless the sink refuses one of their pieces. -/
theorem emit_fields_through {index : Nat} {fields : List FieldDescriptor}
    (renders : r.Renders registry index fields) (sink : Sink) :
    ((r.emitFields registry index fields sink).fault = none
        ∧ (r.emitFields registry index fields sink).seen = placed index fields)
      ∨ ∃ path fault, (r.emitFields registry index fields sink).fault = some (.io path fault) := by
  induction fields generalizing index sink with
  | nil => exact Or.inl ⟨rfl, rfl⟩
  | cons field rest ih =>
      obtain ⟨⟨accessors, rendered⟩, others⟩ := renders_cons.mp renders
      rw [emit_fields_cons, rendered]
      simp only [Emission.write]
      cases sink.putAll (fieldPieces accessors) with
      | none => exact Or.inr ⟨_, _, rfl⟩
      | some after =>
          rcases ih others after with ⟨done, seen⟩ | refused
          · have first : placed index (field :: rest) = (index, field) :: placed (index + 1) rest := rfl
            rw [first, ← seen]
            exact Or.inl ⟨done, rfl⟩
          · exact Or.inr refused

/-! Limits of emissions. -/

/-- Without a limit text is only added to. -/
theorem emit_fields_grows (r : EmitRequest) (registry : Registry) (index : Nat) (fields : List FieldDescriptor)
    (before : String) :
    before.utf8ByteSize
      ≤ (r.emitFields registry index fields (.keeping none before)).sink.text.utf8ByteSize := by
  induction fields generalizing index before with
  | nil => exact Nat.le_refl _
  | cons field rest ih =>
      rw [emit_fields_cons]
      cases r.rendering registry index field with
      | error cause => exact Nat.le_refl _
      | ok accessors =>
          have longer := ih (index + 1) (before ++ String.join (fieldPieces accessors))
          rw [String.utf8ByteSize_append] at longer
          simp only [Emission.write, Sink.put_all_unlimited, Emission.announcing]
          omega

/-- Fields that render are taken by a sink with a limit if their text fits, and only then. -/
theorem emit_fields_limited {limit index : Nat} {fields : List FieldDescriptor} {before : String}
    (renders : r.Renders registry index fields) (fits : before.utf8ByteSize ≤ limit) :
    (r.emitFields registry index fields (.keeping (some limit) before)).fault = none
      ↔ (r.emitFields registry index fields (.keeping none before)).sink.text.utf8ByteSize ≤ limit := by
  induction fields generalizing index before with
  | nil => exact iff_of_true rfl fits
  | cons field rest ih =>
      obtain ⟨⟨accessors, rendered⟩, others⟩ := renders_cons.mp renders
      rw [emit_fields_cons, emit_fields_cons, rendered]
      simp only [Emission.write, Sink.put_all_unlimited, Emission.announcing]
      rw [Sink.put_all_limited _ fits]
      by_cases room : (before ++ String.join (fieldPieces accessors)).utf8ByteSize ≤ limit
      · rw [if_pos room]
        exact ih others room
      · rw [if_neg room]
        have longer := emit_fields_grows r registry (index + 1) rest
          (before ++ String.join (fieldPieces accessors))
        apply iff_of_false
        · simp
        · omega

variable {header : String}

theorem emit_limited (rendered : registry.render .header r.packageName r.headerContext = .ok header)
    (renders : r.Renders registry 0 r.fields) (limit : Nat) :
    (r.emit registry (.keeping (some limit) "")).fault = none
      ↔ (r.emit registry (.keeping none "")).sink.text.utf8ByteSize ≤ limit := by
  have empty : ("" : String).utf8ByteSize ≤ limit := Nat.zero_le limit
  unfold emit
  rw [rendered]
  simp only [Emission.write, Sink.put_all_unlimited]
  rw [Sink.put_all_limited _ empty]
  by_cases room : ("" ++ String.join (headerPieces header)).utf8ByteSize ≤ limit
  · rw [if_pos room]
    exact emit_fields_limited renders room
  · rw [if_neg room]
    have longer := emit_fields_grows r registry 0 r.fields
      ("" ++ String.join (headerPieces header))
    apply iff_of_false
    · simp
    · omega

/-! Faults of rendering. -/

/-- Up to the first field that does not render an emission is that of the fields before it. -/
theorem emit_stops {count : Nat} {field : FieldDescriptor} {cause : TemplateError}
    (rendered : registry.render .header r.packageName r.headerContext = .ok header)
    (here : r.fields[count]? = some field) (renders : r.Renders registry 0 (r.fields.take count))
    (fails : r.rendering registry count field = .error cause) (sink : Sink) :
    ((r.emit registry sink).fault = some (.template cause)
        ∧ (r.emit registry sink).seen = placed 0 (r.fields.take (count + 1))
        ∧ (r.emit registry sink).sink = ((r.cut count).emit registry sink).sink)
      ∨ ∃ path fault, (r.emit registry sink).fault = some (.io path fault) := by
  obtain ⟨within, found⟩ := List.getElem?_eq_some_iff.mp here
  have length : (r.fields.take count).length = count := by
    rw [List.length_take]
    omega
  have parts : r.fields = r.fields.take count ++ field :: r.fields.drop (count + 1) := by
    rw [← found, List.getElem_cons_drop, List.take_append_drop]
  have begun : placed 0 (r.fields.take (count + 1)) = placed 0 (r.fields.take count) ++ [(count, field)] := by
    rw [List.take_add_one, here, placed, placed, List.zipIdx_append, List.map_append, length, Nat.zero_add]
    rfl
  have shorter : (r.cut count).emit registry sink
      = Emission.write r.sourceFile (headerPieces header) sink fun sink =>
          r.emitFields registry 0 (r.fields.take count) sink := by
    have same : registry.render .header (r.cut count).packageName (r.cut count).headerContext = .ok header :=
      rendered
    unfold emit
    rw [same]
    simp only [emit_fields_cut]
    rfl
  have longer : r.emit registry sink
      = Emission.write r.sourceFile (headerPieces header) sink fun sink =>
          r.emitFields registry 0 (r.fields.take count ++ field :: r.fields.drop (count + 1)) sink := by
    unfold emit
    rw [rendered, ← parts]
  rw [shorter, longer]
  unfold Emission.write
  cases sink.putAll (headerPieces header) with
  | none => exact Or.inr ⟨_, _, rfl⟩
  | some after =>
      simp only
      rw [emit_fields_append, length, Nat.zero_add]
      rcases emit_fields_through renders after with ⟨done, seen⟩ | ⟨path, fault, refused⟩
      · have last (sink : Sink) : r.emitFields registry count (field :: r.fields.drop (count + 1)) sink
            = ⟨sink, [(count, field)], some (.template cause)⟩ := by
          rw [emit_fields_cons, fails]
          rfl
        unfold Emission.andThen
        rw [done]
        simp only [last, seen, begun, and_self, true_or]
      · unfold Emission.andThen
        rw [refused]
        exact Or.inr ⟨path, fault, refused⟩

theorem emit_through (rendered : registry.render .header r.packageName r.headerContext = .ok header)
    (renders : r.Renders registry 0 r.fields) (sink : Sink) :
    ((r.emit registry sink).fault = none ∧ (r.emit registry sink).seen = placed 0 r.fields)
      ∨ ∃ path fault, (r.emit registry sink).fault = some (.io path fault) := by
  have whole : r.emit registry sink
      = Emission.write r.sourceFile (headerPieces header) sink fun sink =>
          r.emitFields registry 0 r.fields sink := by
    unfold emit
    rw [rendered]
  rw [whole]
  unfold Emission.write
  cases sink.putAll (headerPieces header) with
  | none => exact Or.inr ⟨_, _, rfl⟩
  | some after => exact emit_fields_through renders after

/-- Before any text is written, emission into a file is the same for all requests: it fails, or it opens a sink,
and what that sink took is what is left. -/
theorem emit_file_cases (output : Path) (t : Tree) :
    (∃ u path fault, ∀ (r : EmitRequest) (registry : Registry),
        r.emitFile registry output t = (u, [], some (.io path fault)))
      ∨ ∃ (sink : Sink) (left : Sink → Tree), ∀ (r : EmitRequest) (registry : Registry),
          r.emitFile registry output t
            = (left (r.emit registry sink).sink, (r.emit registry sink).seen,
                faultIn output (r.emit registry sink)) := by
  have filling (u : Tree) : (∃ path fault, ∀ (r : EmitRequest) (registry : Registry),
        r.fill registry output u = (u, [], some (.io path fault)))
      ∨ ∃ (sink : Sink) (left : Sink → Tree), ∀ (r : EmitRequest) (registry : Registry),
          r.fill registry output u
            = (left (r.emit registry sink).sink, (r.emit registry sink).seen,
                faultIn output (r.emit registry sink)) := by
    unfold fill
    cases u.create output with
    | error fault => exact Or.inl ⟨output, fault, fun _ _ => rfl⟩
    | ok opened =>
        obtain ⟨u, place⟩ := opened
        right
        by_cases device : u.node? place = some .fullDevice
        · refine ⟨.refusing 0, fun _ => u, fun _ _ => ?_⟩
          simp only [device]
        · refine ⟨.keeping none "", fun sink => u.put place (.file (.text sink.text)), fun _ _ => ?_⟩
          simp only
  unfold emitFile
  cases output.parent?.filter fun up => !up.isEmpty with
  | none =>
      rcases filling t with ⟨path, fault, failed⟩ | opened
      · exact Or.inl ⟨t, path, fault, failed⟩
      · exact Or.inr opened
  | some up =>
      cases made : t.makeDirectories up with
      | mk u fault =>
          cases fault with
          | some refused => exact Or.inl ⟨u, up, refused, fun _ _ => by simp [made]⟩
          | none =>
              simp only [made]
              rcases filling u with ⟨path, fault, failed⟩ | opened
              · exact Or.inl ⟨u, path, fault, failed⟩
              · exact Or.inr opened

theorem fault_in_io {path : Path} {fault : Fault} {e : Emission} (refused : e.fault = some (.io path fault)) :
    faultIn output e = some (.io output fault) := by
  unfold faultIn
  rw [refused]

/-- What fails about a field is its rendering. -/
theorem rendering_fault {index : Nat} {field : FieldDescriptor} {cause : TemplateError}
    (fails : r.rendering registry index field = .error cause) :
    ∃ fault, cause = .render .accessors (r.structName ++ "." ++ field.name) fault := by
  unfold rendering Registry.render at fails
  cases text : registry.templates.render TemplateName.accessors.fileName (r.fieldContext index field) with
  | ok _ =>
      rw [text] at fails
      cases fails
  | error fault =>
      rw [text] at fails
      exact ⟨fault, (Except.error.inj fails).symm⟩

/-- An emission whose header renders stops precisely at the first field that does not render: with the fault of
that field, the fields up to it announced, and the files as the fields before it alone would leave them. If all
fields render, all are announced, and a sink with a limit takes the emission if and only if the whole text is
within the limit. -/
theorem emission_stops_at_fault (r : EmitRequest) (registry : Registry) (header : String)
    (rendered : registry.render .header r.packageName r.headerContext = .ok header) :
    (∀ output t, (∀ path fault, (r.emitFile registry output t).2.2 ≠ some (.io path fault)) →
        (∀ count field cause, r.fields[count]? = some field → r.Renders registry 0 (r.fields.take count) →
            r.rendering registry count field = .error cause →
          (r.emitFile registry output t).2 = (placed 0 (r.fields.take (count + 1)), some (.template cause))
            ∧ (∃ fault, cause = .render .accessors (r.structName ++ "." ++ field.name) fault)
            ∧ (r.emitFile registry output t).1 = ((r.cut count).emitFile registry output t).1)
          ∧ (r.Renders registry 0 r.fields → (r.emitFile registry output t).2 = (placed 0 r.fields, none)))
      ∧ (r.Renders registry 0 r.fields → ∀ limit,
          (r.emit registry (.keeping (some limit) "")).fault = none
            ↔ (r.emit registry (.keeping none "")).sink.text.utf8ByteSize ≤ limit) := by
  constructor
  · intro output t sound
    rcases emit_file_cases output t with ⟨u, path, fault, failed⟩ | ⟨sink, left, emitted⟩
    · exact absurd (by rw [failed]) (sound path fault)
    have unrefused (path : Path) (fault : Fault) : (r.emit registry sink).fault ≠ some (.io path fault) := by
      intro refused
      apply sound output fault
      rw [emitted]
      exact fault_in_io refused
    constructor
    · intro count field cause here renders fails
      rcases emit_stops rendered here renders fails sink with ⟨fault, seen, same⟩ | ⟨path, fault, refused⟩
      · have told : faultIn output (r.emit registry sink) = some (.template cause) := by
          unfold faultIn
          rw [fault]
        refine ⟨?_, rendering_fault fails, ?_⟩
        · rw [emitted, seen, told]
        · rw [emitted, emitted, same]
      · exact absurd refused (unrefused path fault)
    · intro renders
      rcases emit_through rendered renders sink with ⟨done, seen⟩ | ⟨path, fault, refused⟩
      · have quiet : faultIn output (r.emit registry sink) = none := by
          have flushed : faultIn output (r.emit registry sink) ≠ some (.io output .deviceFull) := by
            have := sound output .deviceFull
            rwa [emitted] at this
          unfold faultIn at flushed ⊢
          rw [done] at flushed ⊢
          by_cases empty : (r.emit registry sink).sink.isFlushed = true
          · exact if_pos empty
          · exact absurd (if_neg empty) flushed
        rw [emitted, seen, quiet]
      · exact absurd refused (unrefused path fault)
  · intro renders limit
    exact emit_limited rendered renders limit

end EmitRequest

/-! A registry whose accessors render for the first field of a struct only. -/

namespace StopSample

/-- The accessors ask for a variable that there is not, unless the position of the field is zero. -/
def registry : Registry where
  templates := ⟨[
    ⟨TemplateName.header.fileName, [.text "// head \n"], none, [], [], []⟩,
    ⟨TemplateName.accessors.fileName,
      [.branch [.mk ⟨false, false⟩ (.plain (.lookup (.name "index")))
        [.output ⟨false, false⟩ (.plain (.lookup (.name "absent")))]] none ⟨false, false⟩, .text "fn"],
      none, [], [], []⟩]⟩
  source := .builtIn
  complete := by
    intro name
    cases name <;> rfl

def request : EmitRequest :=
  ⟨"S", ⟨"", "", ""⟩, [⟨"a", "u8"⟩, ⟨"b", "u8"⟩, ⟨"c", "u8"⟩], "app", ⟨"lib.rs"⟩⟩

/-- The file that is emitted into, in the only directory. -/
def output : File.Path := ⟨"/out.rs"⟩

theorem header_renders :
    registry.render .header request.packageName request.headerContext = .ok "// head \n" :=
  Outcome.to_option_some.mp (by decide +kernel)

theorem first_renders : request.Renders registry 0 (request.fields.take 1) := by
  intro place member
  rw [List.mem_singleton.mp member]
  exact ⟨"fn", Outcome.to_option_some.mp (by decide +kernel)⟩

theorem second_fails : request.rendering registry 1 ⟨"b", "u8"⟩
    = .error (.render .accessors "S.b" (.undefined "absent")) := by
  rfl

/-- The only directory, which is empty. -/
def files : File.Tree := ⟨[], []⟩

theorem emitted : request.emitFile registry output files
    = (⟨[(["out.rs".toList], .file (.text "// head\n\nfn\n"))], []⟩, [(0, ⟨"a", "u8"⟩), (1, ⟨"b", "u8"⟩)],
        some (.template (.render .accessors "S.b" (.undefined "absent")))) := by
  decide +kernel

theorem no_device_error (path : File.Path) (fault : File.Fault) :
    (request.emitFile registry output files).2.2 ≠ some (.io path fault) := by
  rw [emitted]
  simp

end StopSample

/-- Of three fields the second does not render: it is announced, the third is not, and the file has the first
alone, of twelve bytes. -/
theorem sample_stops_at_second :
    ((StopSample.request.emitFile StopSample.registry StopSample.output StopSample.files).2
          = ([(0, ⟨"a", "u8"⟩), (1, ⟨"b", "u8"⟩)],
              some (.template (.render .accessors "S.b" (.undefined "absent"))))
        ∧ (StopSample.request.emitFile StopSample.registry StopSample.output StopSample.files).1
          = ((StopSample.request.cut 1).emitFile StopSample.registry StopSample.output StopSample.files).1)
      ∧ ((StopSample.request.cut 1).emit StopSample.registry (.keeping (some 12) "")).fault = none
      ∧ ((StopSample.request.cut 1).emit StopSample.registry (.keeping (some 11) "")).fault ≠ none := by
  obtain ⟨stopped, -⟩ :=
    (EmitRequest.emission_stops_at_fault StopSample.request StopSample.registry _ StopSample.header_renders).1
      StopSample.output StopSample.files StopSample.no_device_error
  obtain ⟨told, -, files⟩ := stopped 1 _ _ rfl StopSample.first_renders StopSample.second_fails
  have limited :=
    (EmitRequest.emission_stops_at_fault (StopSample.request.cut 1) StopSample.registry _
      StopSample.header_renders).2 StopSample.first_renders
  have size : ((StopSample.request.cut 1).emit StopSample.registry (.keeping none "")).sink.text.utf8ByteSize = 12 := by
    decide +kernel
  rw [size] at limited
  refine ⟨⟨told, files⟩, (limited 12).mpr (Nat.le_refl _), fun none => ?_⟩
  have short := (limited 11).mp none
  omega

end Accessors
