import Accessors.Generation.Run
import Accessors.Proofs.Emitted
import Accessors.Proofs.FileWrite

/-!
The generated file. A run that succeeds has parsed its reference, loaded the module, resolved the struct and
emitted it, and with the built-in templates the file it reports holds one text, which is put together here from
the struct alone: the header, and for each member in order a blank line and its accessors.
-/

namespace Accessors

/-- A member of a struct: its name, what its accessors are named after, and its type. -/
structure Member where
  name : String
  accessor : String
  type : Ty

/-- The members in the order of their declaration. A member without a name goes by its position. -/
def Fields.members : Fields → List Member
  | .named fields => fields.map fun field => ⟨field.1.text, unraw field.1.text, field.2⟩
  | .positional types => types.zipIdx.map fun field => ⟨toString field.2, toString field.2, field.1⟩
  | .unit => []

/-- The text that is generated for a struct under a name. -/
def generatedText (invocation : Invocation) (name : String) (s : ResolvedStruct) : String :=
  let header : String → String
    | "package_name" => invocation.packageName
    | "source_file" => invocation.sourceFile.text
    | _ => ""
  let accessors (member : Member) : String → String
    | "struct_name" => name
    | "impl_generics" => s.generics.implGenerics
    | "type_generics" => s.generics.typeGenerics
    | "where_clause" => s.generics.whereClause
    | "field_name" => member.name
    | "accessor_name" => member.accessor
    | "field_type" => Signature.ty s.imports member.type
    | _ => ""
  Template.BuiltIn.headerWith header
    ++ String.join (s.fields.members.map fun member => "\n" ++ Template.BuiltIn.accessorsWith (accessors member))

/-- A position has no raw mark. -/
theorem unraw_position (position : Nat) : unraw (toString position) = toString position := by
  have digits : (toString position).toList = Nat.toDigits 10 position := by
    rw [Nat.toString_eq_repr, Nat.toList_repr]
  have unmarked : Text.cutStart? rawMark (toString position).toList = none := by
    rw [digits]
    cases chars : Nat.toDigits 10 position with
    | nil => rfl
    | cons c rest =>
        have digit : c.isDigit = true :=
          Nat.isDigit_of_mem_toDigits (b := 10) (n := position) (by decide) (by decide)
            (by rw [chars]; exact List.mem_cons_self)
        have differs : 'r' ≠ c := by
          intro same
          rw [← same] at digit
          exact absurd digit (by decide)
        rw [rawMark, Text.cutStart?, if_neg differs]
  unfold unraw
  rw [unmarked]

/-- The fields that are emitted are the members. -/
theorem describe_eq_members (imports : ImportMap) (fields : Fields) :
    fields.describe imports = fields.members.map fun member => ⟨member.name, Signature.ty imports member.type⟩ := by
  cases fields with
  | named fields => simp [Fields.describe, Fields.members]
  | positional types => simp [Fields.describe, Fields.members]
  | unit => rfl

theorem member_accessor {fields : Fields} {member : Member} (listed : member ∈ fields.members) :
    member.accessor = unraw member.name := by
  cases fields with
  | named fields =>
      obtain ⟨field, _, same⟩ := List.mem_map.mp listed
      rw [← same]
  | positional types =>
      obtain ⟨field, _, same⟩ := List.mem_map.mp listed
      rw [← same, unraw_position]
  | unit => exact absurd listed List.not_mem_nil

/-- What a run emits a struct as. -/
def Run.request (r : Run) (s : ResolvedStruct) : EmitRequest :=
  ⟨s.name, s.generics, s.describeFields, r.invocation.packageName, r.invocation.sourceFile⟩

/-- The text of a request is the text that is generated. -/
theorem text_of_request (r : Run) (s : ResolvedStruct) :
    (r.request s).text = generatedText r.invocation s.name s := by
  have fields : (r.request s).fields.map (r.request s).fieldText
      = s.fields.members.map fun member => (r.request s).fieldText
          ⟨member.name, Signature.ty s.imports member.type⟩ := by
    have described : (r.request s).fields = s.fields.describe s.imports := rfl
    rw [described, describe_eq_members, List.map_map]
    rfl
  have same : ∀ member ∈ s.fields.members,
      (r.request s).fieldText ⟨member.name, Signature.ty s.imports member.type⟩
        = "\n" ++ Template.BuiltIn.accessorsWith fun
            | "struct_name" => s.name
            | "impl_generics" => s.generics.implGenerics
            | "type_generics" => s.generics.typeGenerics
            | "where_clause" => s.generics.whereClause
            | "field_name" => member.name
            | "accessor_name" => member.accessor
            | "field_type" => Signature.ty s.imports member.type
            | _ => "" := by
    intro member listed
    rw [member_accessor listed]
    rfl
  unfold EmitRequest.text generatedText
  rw [fields, List.map_congr_left same]
  rfl

/-! The stages of a run. -/

namespace Stage

variable {α β ε : Type} {p q : Progress}

/-- The stage succeeds and takes one progress to another. -/
def Gives (x : Stage α) (p : Progress) (a : α) (q : Progress) : Prop := x.run.run p = (.ok a, q)

theorem run_bind (x : Stage α) (next : α → Stage β) (p : Progress) :
    (x >>= next).run.run p
      = match x.run.run p with
        | (.ok a, middle) => (next a).run.run middle
        | (.error fault, middle) => (.error fault, middle) := by
  simp only [bind, ExceptT.bind, ExceptT.mk, ExceptT.run, StateT.run, StateT.bind, ExceptT.bindCont]
  cases x p with
  | mk outcome middle => cases outcome <;> rfl

theorem gives_bind {x : Stage α} {next : α → Stage β} {b : β} (given : (x >>= next).Gives p b q) :
    ∃ a middle, x.Gives p a middle ∧ (next a).Gives middle b q := by
  unfold Gives at given
  rw [run_bind] at given
  split at given
  · next a middle first => exact ⟨a, middle, first, given⟩
  · exact nomatch (Prod.mk.inj given).1

theorem gives_pure {a b : α} (given : (pure a : Stage α).Gives p b q) : a = b ∧ p = q := by
  have same := Prod.mk.inj given
  exact ⟨Except.ok.inj same.1, same.2⟩

theorem gives_of_except {wrap : ε → Error} {x : Except ε α} {a : α} (given : (ofExcept wrap x).Gives p a q) :
    x = .ok a ∧ p = q := by
  cases x with
  | error fault => exact nomatch (Prod.mk.inj given).1
  | ok found =>
      have same := gives_pure given
      exact ⟨by rw [same.1], same.2⟩

theorem gives_enter {state : RunState} {u : Unit} (given : (enter state).Gives p u q) : q.tree = p.tree := by
  have same := Prod.mk.inj given
  rw [← same.2]

theorem gives_tree {t : File.Tree} (given : tree.Gives p t q) : t = p.tree ∧ p = q := by
  have same := Prod.mk.inj given
  exact ⟨(Except.ok.inj same.1).symm, same.2⟩

end Stage

/-- A struct that was resolved goes by the name it was asked for. -/
theorem resolved_name {t : File.Tree} {layout : CrateLayout} {m : Module} {name : String} {s : ResolvedStruct}
    (resolved : resolveStruct t layout m name = .ok s) : s.name = name := by
  unfold resolveStruct at resolved
  split at resolved
  · exact absurd resolved (by simp)
  · split at resolved
    · exact absurd resolved (by simp)
    · split at resolved
      · rw [← Except.ok.inj resolved]
        rfl
      · obtain ⟨⟨found, decl⟩, _, placed⟩ := Outcome.bind_ok.mp resolved
        simp only at placed
        split at placed
        · exact absurd placed (by simp)
        · rw [← Except.ok.inj placed]
          rfl
      · exact absurd resolved (by simp)

namespace EmitRequest

/-- With the built-in templates a file that is emitted without a fault is read as the text of the request. -/
theorem read_text_of_emit_file {r : EmitRequest} {output : File.Path} {t u : File.Tree}
    {seen : List (Nat × FieldDescriptor)} (emitted : r.emitFile .builtIn output t = (u, seen, none)) :
    u.readText output = .ok r.text := by
  unfold emitFile at emitted
  simp only at emitted
  split at emitted
  · exact absurd (Prod.mk.inj (Prod.mk.inj emitted).2).2 (by simp)
  · split at emitted
    · exact absurd (Prod.mk.inj (Prod.mk.inj emitted).2).2 (by simp)
    · next made place created =>
        split at emitted
        · have fault := (Prod.mk.inj (Prod.mk.inj emitted).2).2
          exact absurd fault (emit_refusing output)
        · next noDevice =>
            obtain ⟨sink, _⟩ := @emit_text r
            rw [← (Prod.mk.inj emitted).1, sink]
            exact File.Tree.read_text_of_create created noDevice

end EmitRequest

namespace Run

theorem emit_gives {r : Run} {s : ResolvedStruct} {p q : Progress} {report : Report}
    (given : (r.emit s).Gives p report q) :
    (∃ seen, (r.request s).emitFile r.registry report.outputPath p.tree = (q.tree, seen, none))
      ∧ report.fieldCount = s.fields.members.length := by
  unfold emit at given
  obtain ⟨_, p₁, entered, given⟩ := Stage.gives_bind given
  obtain ⟨tree, p₂, reading, given⟩ := Stage.gives_bind given
  have same₁ := Stage.gives_enter entered
  obtain ⟨read, same₂⟩ := Stage.gives_tree reading
  have treeSame : tree = p.tree := read.trans same₁
  rw [treeSame] at given
  cases emitted : (r.request s).emitFile r.registry (plannedOutput r.config r.invocation s.name) p.tree with
  | mk u rest =>
      obtain ⟨seen, fault⟩ := rest
      unfold request at emitted
      rw [emitted] at given
      obtain ⟨_, p₃, stored, given⟩ := Stage.gives_bind given
      have kept : p₃.tree = u := by rw [← (Prod.mk.inj stored).2]
      cases fault with
      | some e =>
          cases last : seen.getLast? with
          | some field =>
              rw [last] at given
              obtain ⟨_, p₄, _, given⟩ := Stage.gives_bind given
              exact nomatch (Prod.mk.inj given).1
          | none =>
              rw [last] at given
              exact nomatch (Prod.mk.inj given).1
      | none =>
          -- the state that is entered for the last field does not touch the files
          obtain ⟨p₄, same₄, given⟩ : ∃ p₄ : Progress, p₄.tree = p₃.tree
              ∧ Stage.Gives (pure ⟨plannedOutput r.config r.invocation s.name, s.name, s.describeFields.length⟩)
                  p₄ report q := by
            cases last : seen.getLast? with
            | some field =>
                rw [last] at given
                obtain ⟨_, p₄, emitting, given⟩ := Stage.gives_bind given
                exact ⟨p₄, Stage.gives_enter emitting, given⟩
            | none =>
                rw [last] at given
                exact ⟨p₃, rfl, given⟩
          obtain ⟨reported, final⟩ := Stage.gives_pure given
          rw [← reported, ← final, same₄, kept]
          refine ⟨⟨seen, emitted⟩, ?_⟩
          unfold ResolvedStruct.describeFields
          rw [describe_eq_members, List.length_map]

/-- What the stages of a run that succeeds have found. -/
theorem stages_give {r : Run} {reference : String} {p q : Progress} {report : Report}
    (given : (r.stages reference).Gives p report q) :
    ∃ parsed layout m s middle, TypeReference.parse reference = .ok parsed
      ∧ CrateLayout.discover p.tree r.config.crateRoot = .ok layout
      ∧ Module.load p.tree layout parsed.modulePath = .ok m
      ∧ resolveStruct p.tree layout m parsed.typeName = .ok s
      ∧ middle.tree = p.tree ∧ (r.emit s).Gives middle report q := by
  unfold stages at given
  obtain ⟨parsed, p₁, parsing, given⟩ := Stage.gives_bind given
  obtain ⟨_, p₂, entered, given⟩ := Stage.gives_bind given
  obtain ⟨tree, p₃, reading, given⟩ := Stage.gives_bind given
  obtain ⟨layout, p₄, discovering, given⟩ := Stage.gives_bind given
  obtain ⟨m, p₅, loading, given⟩ := Stage.gives_bind given
  obtain ⟨_, p₆, loaded, given⟩ := Stage.gives_bind given
  obtain ⟨s, p₇, resolving, given⟩ := Stage.gives_bind given
  obtain ⟨_, p₈, resolved, given⟩ := Stage.gives_bind given
  obtain ⟨parsing, same₁⟩ := Stage.gives_of_except parsing
  have same₂ := Stage.gives_enter entered
  obtain ⟨read, same₃⟩ := Stage.gives_tree reading
  obtain ⟨discovering, same₄⟩ := Stage.gives_of_except discovering
  obtain ⟨loading, same₅⟩ := Stage.gives_of_except loading
  have same₆ := Stage.gives_enter loaded
  obtain ⟨resolving, same₇⟩ := Stage.gives_of_except resolving
  have same₈ := Stage.gives_enter resolved
  have treeSame : tree = p.tree := by rw [read, same₂, same₁]
  rw [treeSame] at discovering loading resolving
  refine ⟨parsed, layout, m, s, p₈, parsing, discovering, loading, resolving, ?_, given⟩
  rw [same₈, ← same₇, same₆, ← same₅, ← same₄, ← same₃, same₂, same₁]

/-- A run that is executed with success goes through its stages. -/
theorem execute_gives {r : Run} {reference : String} {p q : Progress} {report : Report}
    (executed : r.execute reference p = (.ok report, q)) :
    ∃ last, (r.stages reference).Gives p report last ∧ last.tree = q.tree := by
  unfold execute at executed
  split at executed
  · exact nomatch (Prod.mk.inj executed).1
  · split at executed
    · next found last done =>
        obtain ⟨reports, ends⟩ := Prod.mk.inj executed
        rw [Except.ok.inj reports] at done
        exact ⟨last, done, by rw [← ends]⟩
    · exact nomatch (Prod.mk.inj executed).1

end Run

/-- Generating is one run with the templates that were loaded. -/
theorem generate_ok {config : Config} {invocation : Invocation} {reference : String} {t u : File.Tree}
    {report : Report} (ran : generate config invocation reference t = (.ok report, u)) :
    ∃ registry q, Registry.load t config.templateSource = .ok registry
      ∧ (⟨config, invocation, registry⟩ : Run).execute reference ⟨.idle, t⟩ = (.ok report, q) ∧ q.tree = u := by
  unfold generate at ran
  split at ran
  · exact nomatch (Prod.mk.inj ran).1
  · next registry loaded =>
      cases executed : (⟨config, invocation, registry⟩ : Run).execute reference ⟨.idle, t⟩ with
      | mk outcome q =>
          rw [executed] at ran
          obtain ⟨outcomes, trees⟩ := Prod.mk.inj ran
          rw [← outcomes]
          exact ⟨registry, q, loaded, executed, trees⟩

/-- A run with the built-in templates that succeeds leaves, in the file it reports and whatever was there before,
the text that is generated for the struct that the reference resolves to, and it counts the members. -/
theorem generated_file_exact {config : Config} {invocation : Invocation} {reference : String}
    {t u : File.Tree} {report : Report} (plain : config.templateDir = none)
    (ran : generate config invocation reference t = (.ok report, u)) :
    ∃ parsed layout m s, TypeReference.parse reference = .ok parsed
      ∧ CrateLayout.discover t config.crateRoot = .ok layout
      ∧ Module.load t layout parsed.modulePath = .ok m
      ∧ resolveStruct t layout m parsed.typeName = .ok s
      ∧ u.readText report.outputPath = .ok (generatedText invocation parsed.typeName s)
      ∧ report.fieldCount = s.fields.members.length := by
  obtain ⟨registry, q, loaded, executed, same⟩ := generate_ok ran
  have source : config.templateSource = .builtIn := by
    unfold Config.templateSource
    rw [plain]
  rw [source, Registry.load_built_in] at loaded
  obtain ⟨last, given, trees⟩ := Run.execute_gives executed
  obtain ⟨parsed, layout, m, s, middle, parsing, discovering, loading, resolving, kept, emitting⟩ :=
    Run.stages_give given
  obtain ⟨⟨seen, emitted⟩, counted⟩ := Run.emit_gives emitting
  rw [← Except.ok.inj loaded] at emitted
  have text := EmitRequest.read_text_of_emit_file emitted
  rw [trees, same, text_of_request, resolved_name resolving] at text
  exact ⟨parsed, layout, m, s, parsing, discovering, loading, resolving, text, counted⟩

namespace GenerationSample

/-- A crate whose entry file declares one struct. -/
def tree : File.Tree where
  entries := [
    (["Cargo.toml".toList], .file (.text "[package]\nname = \"sample\"\n[lib]\npath = \"lib.rs\"\n")),
    (["lib.rs".toList], .file (.text "struct S(u8);"))]
  cwd := []

def config : Config := ⟨⟨"/"⟩, ⟨"/"⟩, none⟩

def invocation : Invocation := ⟨⟨"build.rs"⟩, "sample"⟩

def report : Report := ⟨⟨"/build_s_gen_v2.rs"⟩, "S", 1⟩

/-- The run for the struct succeeds. -/
theorem generates : ∃ u, generate config invocation "crate.S" tree = (.ok report, u) := by
  have succeeds : (generate config invocation "crate.S" tree).1.toOption = some report := by
    unfold generate
    have source : config.templateSource = .builtIn := rfl
    rw [source, Registry.load_built_in]
    decide +kernel
  cases ran : generate config invocation "crate.S" tree with
  | mk outcome u =>
      rw [ran] at succeeds
      have outcomes : outcome = .ok report := Outcome.to_option_some.mp succeeds
      exact ⟨u, by rw [outcomes]⟩

theorem parses : TypeReference.parse "crate.S" = .ok ⟨"crate", "S"⟩ := by
  have parsed : (TypeReference.parse "crate.S").toOption = some ⟨"crate", "S"⟩ := by decide +kernel
  exact Outcome.to_option_some.mp parsed

end GenerationSample

theorem generated_file_of_sample :
    ∃ report u s, generate GenerationSample.config GenerationSample.invocation "crate.S" GenerationSample.tree
        = (.ok report, u)
      ∧ u.readText report.outputPath = .ok (generatedText GenerationSample.invocation "S" s)
      ∧ report.fieldCount = 1 := by
  obtain ⟨u, ran⟩ := GenerationSample.generates
  obtain ⟨parsed, _, _, s, parsing, _, _, _, text, _⟩ := generated_file_exact rfl ran
  rw [GenerationSample.parses] at parsing
  rw [← Except.ok.inj parsing] at text
  exact ⟨GenerationSample.report, u, s, ran, text, rfl⟩

end Accessors
