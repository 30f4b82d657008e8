import Accessors.Proofs.MessageLines
import Accessors.Proofs.Outlines
import Accessors.Proofs.PlannedOutputs
import Accessors.Proofs.StoppedEmission

/-!
Where the names come from that errors speak of. They are identifiers of the crate, or parts of the reference that a run
was asked for, and neither the crate nor a reference in one line puts a line break into a name.
-/

namespace Accessors

open Text (OneLine)

/-! The names of a reference. -/

theorem Text.mem_of_trim {text : String} {c : Char} (member : c ∈ (trim text).toList) : c ∈ text.toList := by
  unfold trim trimChars trimEndChars at member
  rw [String.toList_ofList, List.mem_reverse] at member
  have front := List.mem_reverse.mp ((List.dropWhile_suffix _).subset member)
  exact (List.dropWhile_suffix _).subset front

namespace TypeReference

/-- The parts of a reference in one line are in one line. -/
theorem parts_one_line {raw : String} {path name : List Char} (cut : Text.splitAtLast? '.' raw.toList = some (path, name))
    (line : OneLine raw) : OneLine (String.ofList path) ∧ OneLine (String.ofList name) := by
  have shape := Text.append_of_splitAtLast? cut
  constructor
  · apply Text.one_line_of_chars _ line
    intro c member
    rw [String.toList_ofList] at member
    rw [shape]
    exact List.mem_append_left _ member
  · apply Text.one_line_of_chars _ line
    intro c member
    rw [String.toList_ofList] at member
    rw [shape]
    exact List.mem_append_right _ (List.mem_cons_of_mem _ member)

theorem names_one_line {text : String} {r : TypeReference} (line : OneLine text) (parses : parse text = .ok r) :
    OneLine r.modulePath ∧ OneLine r.typeName := by
  have trimmed : OneLine (Text.trim text) := Text.one_line_of_chars (fun _ => Text.mem_of_trim) line
  unfold parse at parses
  have made : ofTrimmed (Text.trim text) = .ok r := Outcome.map_error_ok.mp parses
  obtain ⟨path, name, cut, _, _, _, _, shape⟩ := of_trimmed_ok.mp made
  rw [shape]
  exact parts_one_line cut trimmed

/-- What is wrong with a text that is no reference is told without a name, or with one of its parts. -/
theorem fault_of_trimmed {raw : String} {fault : ReferenceFault} (failed : ofTrimmed raw = .error fault) :
    fault ∈ [.noDot, .emptyModule, .emptyName]
      ∨ ∃ path name, Text.splitAtLast? '.' raw.toList = some (path, name)
        ∧ (fault = .badName (String.ofList name) ∨ fault = .badModule (String.ofList path)) := by
  unfold ofTrimmed at failed
  cases cut : Text.splitAtLast? '.' raw.toList with
  | none =>
      rw [cut] at failed
      obtain rfl := Except.error.inj failed
      simp
  | some parts =>
      obtain ⟨path, name⟩ := parts
      rw [cut] at failed
      simp only at failed
      split at failed
      · obtain rfl := Except.error.inj failed
        simp
      · split at failed
        · obtain rfl := Except.error.inj failed
          simp
        · split at failed
          · obtain rfl := Except.error.inj failed
            exact Or.inr ⟨path, name, rfl, Or.inl rfl⟩
          · split at failed
            · obtain rfl := Except.error.inj failed
              exact Or.inr ⟨path, name, rfl, Or.inr rfl⟩
            · cases failed

theorem malformed_one_line {text : String} {m : MalformedReference} (line : OneLine text)
    (fails : parse text = .error m) : ∀ name ∈ (Error.usage m).names, OneLine name := by
  have trimmed : OneLine (Text.trim text) := Text.one_line_of_chars (fun _ => Text.mem_of_trim) line
  unfold parse at fails
  obtain ⟨fault, failed, rfl⟩ := Outcome.map_error_error.mp fails
  rcases fault_of_trimmed failed with unnamed | ⟨path, name, cut, rfl | rfl⟩
  · simp only [List.mem_cons, List.not_mem_nil, or_false] at unnamed
    rcases unnamed with rfl | rfl | rfl <;> simpa [Error.names] using trimmed
  · simpa [Error.names] using ⟨trimmed, (parts_one_line cut trimmed).2⟩
  · simpa [Error.names] using ⟨trimmed, (parts_one_line cut trimmed).1⟩

end TypeReference

/-! The names of modules. -/

namespace Module

variable {t : File.Tree} {layout : CrateLayout} {m : Module}

/-- A module whose path is one line. -/
def OnOneLine (m : Module) : Prop := ∀ segment ∈ m.segments, OneLine segment

theorem OnOneLine.path (lines : m.OnOneLine) : OneLine m.path := Text.one_line_join (by decide) lines

theorem Piece.one_line {piece : String} (sound : m.Piece piece) (lines : m.OnOneLine) : OneLine piece := by
  rcases sound with ⟨own, rfl⟩ | listed
  · exact own.one_line
  · exact lines piece listed

/-- The segments that a module path means are identifiers. -/
theorem normalize_one_line {path : String} {segments : List String} (normal : normalize layout path = .ok segments) :
    ∀ segment ∈ segments, OneLine segment := by
  have crate : OneLine "crate" := by decide
  unfold normalize at normal
  split at normal
  · cases normal
  · cases normal
  · next written _ =>
      have names : ∀ name ∈ written.map (fun s => unraw s.name.text), OneLine name := by
        intro name member
        obtain ⟨s, _, rfl⟩ := List.mem_map.mp member
        exact s.name.unraw_one_line
      split at normal
      · obtain rfl := Except.ok.inj normal
        simpa using crate
      · next first rest shape =>
          rw [shape, List.forall_mem_cons] at names
          split at normal
          · obtain rfl := Except.ok.inj normal
            exact List.forall_mem_cons.mpr ⟨crate, names.2⟩
          · split at normal
            · cases normal
            · obtain rfl := Except.ok.inj normal
              exact List.forall_mem_cons.mpr ⟨crate, List.forall_mem_cons.mpr names⟩

theorem normalize_error_names {path : String} {fault : LoadFault} (failed : normalize layout path = .error fault) :
    fault.names = [] := by
  unfold normalize at failed
  split at failed
  · obtain rfl := Except.error.inj failed
    rfl
  · obtain rfl := Except.error.inj failed
    rfl
  · split at failed
    · cases failed
    · split at failed
      · cases failed
      · split at failed
        · obtain rfl := Except.error.inj failed
          rfl
        · cases failed

theorem items_error_names {file : File.Path} {fault : LoadFault} (failed : itemsOf t file = .error fault) :
    fault.names = [] := by
  unfold itemsOf at failed
  rcases Outcome.bind_error.mp failed with unread | ⟨text, _, unparsed⟩
  · obtain ⟨cause, _, rfl⟩ := Outcome.map_error_error.mp unread
    rfl
  · obtain ⟨place, _, rfl⟩ := Outcome.map_error_error.mp unparsed
    rfl

/-- A step of a walk that fails speaks of no other name than that of its segment. -/
theorem descend_error_names {w : Walk} {segment : String} {fault : LoadFault}
    (failed : w.descend t segment = .error fault) : ∀ name ∈ fault.names, name = segment := by
  unfold Walk.descend at failed
  split at failed
  · obtain rfl := Except.error.inj failed
    simp [LoadFault.names]
  · cases failed
  · next named _ =>
      rcases Outcome.bind_error.mp failed with lost | ⟨place, _, unread⟩
      · unfold Walk.locate at lost
        split at lost
        · cases lost
        · simp only at lost
          split at lost
          · cases lost
          · split at lost
            · cases lost
            · obtain rfl := Except.error.inj lost
              simp [LoadFault.names]
      · rcases Outcome.bind_error.mp unread with broken | ⟨items, _, ended⟩
        · rw [items_error_names broken]
          simp
        · cases ended

theorem load_segments_names {segments : List String} {e : ResolutionError} (lines : ∀ s ∈ segments, OneLine s)
    (failed : loadSegments t layout segments = .error e) : ∀ name ∈ e.names, OneLine name := by
  unfold loadSegments at failed
  obtain ⟨fault, broken, rfl⟩ := Outcome.map_error_error.mp failed
  have inner : ∀ name ∈ fault.names, OneLine name := by
    rcases Outcome.bind_error.mp broken with unopened | ⟨entry, _, lost⟩
    · unfold Walk.start at unopened
      rcases Outcome.bind_error.mp unopened with unread | ⟨items, _, ended⟩
      · rw [items_error_names unread]
        simp
      · cases ended
    · rcases Outcome.bind_error.mp lost with stopped | ⟨walk, _, ended⟩
      · obtain ⟨segment, member, before, step⟩ := Outcome.fold_error_round stopped
        intro name listed
        rw [descend_error_names step name listed]
        exact lines segment (List.mem_of_mem_drop member)
      · cases ended
  exact List.forall_mem_cons.mpr ⟨Text.one_line_join (by decide) lines, inner⟩

theorem load_names {path : String} {e : ResolutionError} (line : OneLine path) (failed : load t layout path = .error e) :
    ∀ name ∈ e.names, OneLine name := by
  unfold load at failed
  rcases Outcome.bind_error.mp failed with refused | ⟨segments, normal, lost⟩
  · obtain ⟨fault, bad, rfl⟩ := Outcome.map_error_error.mp refused
    have names : (ResolutionError.moduleLoad path fault).names = [path] := by
      rw [ResolutionError.names, normalize_error_names bad]
    rw [names]
    simpa using line
  · exact load_segments_names (normalize_one_line (Outcome.map_error_ok.mp normal)) lost

theorem on_one_line_of_load {path : String} (loaded : load t layout path = .ok m) : m.OnOneLine := by
  unfold load at loaded
  obtain ⟨segments, normal, found⟩ := Outcome.bind_ok.mp loaded
  rw [OnOneLine, segments_of_load_segments found]
  exact normalize_one_line (Outcome.map_error_ok.mp normal)

end Module

/-- What is said of the manifest of a crate names no module. -/
theorem CrateLayout.discover_error_names {t : File.Tree} {root : File.Path} {fault : LoadFault}
    (failed : discover t root = .error fault) : fault.names = [] := by
  unfold discover at failed
  rcases Outcome.bind_error.mp failed with unread | ⟨text, _, failed⟩
  · obtain ⟨cause, _, rfl⟩ := Outcome.map_error_error.mp unread
    rfl
  · split at failed
    · obtain rfl := Except.error.inj failed
      rfl
    · split at failed
      · obtain rfl := Except.error.inj failed
        rfl
      · simp only at failed
        split at failed
        · cases failed
        · split at failed
          · cases failed
          · obtain rfl := Except.error.inj failed
            rfl

/-! The names of aliases. -/

section

variable {t : File.Tree} {layout : CrateLayout} {m : Module} {requested name : String}

/-- A target leads to a module and a name in one line each. -/
theorem Module.Leads.one_line {target : Ty} {reached : Module} (leads : m.Leads t layout target reached name)
    (lines : m.OnOneLine) : reached.OnOneLine ∧ OneLine name := by
  have pieces : ∀ piece ∈ (AliasTarget.classify m target).names, OneLine piece := fun piece member =>
    (AliasTarget.pieces_of_classify m target piece member).one_line lines
  unfold Module.Leads at leads
  split at leads
  · next own points =>
      obtain ⟨rfl, rfl⟩ := leads
      rw [points] at pieces
      exact ⟨lines, pieces name (by simp [AliasTarget.names])⟩
  · next segments own points =>
      obtain ⟨loaded, rfl⟩ := leads
      rw [points] at pieces
      refine ⟨?_, pieces name (by simp [AliasTarget.names])⟩
      rw [Module.OnOneLine, Module.segments_of_load_segments loaded]
      exact fun segment member => pieces segment (List.mem_append_left _ member)
  · exact absurd leads id

theorem follow_target_names {target : Ty} {e : ResolutionError} (lines : m.OnOneLine) (line : OneLine requested)
    (failed : followTarget t layout requested m target = .error e) : ∀ name ∈ e.names, OneLine name := by
  unfold followTarget at failed
  split at failed
  · cases failed
  · next segments own points =>
      rcases Outcome.bind_error.mp failed with unloaded | ⟨reached, _, ended⟩
      · apply Module.load_segments_names _ unloaded
        intro segment member
        apply (AliasTarget.pieces_of_classify m target segment _).one_line lines
        rw [points]
        exact List.mem_append_left _ member
      · cases ended
  · obtain rfl := Except.error.inj failed
    simpa [ResolutionError.names] using line

namespace AliasWalk

variable {w : AliasWalk}

theorem meet_names {e : ResolutionError} (line : OneLine requested) (own : OneLine name)
    (failed : w.meet requested m name = .error e) : ∀ name ∈ e.names, OneLine name := by
  unfold meet at failed
  simp only at failed
  split at failed
  · obtain rfl := Except.error.inj failed
    simpa [ResolutionError.names] using line
  · split at failed
    · split at failed
      · obtain rfl := Except.error.inj failed
        simpa [ResolutionError.names] using line
      · cases failed
    · split at failed
      · obtain rfl := Except.error.inj failed
        simpa [ResolutionError.names] using line
      · cases failed
    · obtain rfl := Except.error.inj failed
      simpa [ResolutionError.names] using ⟨line, own⟩

/-- One round speaks of names in one line only, and goes on in a module in one line. -/
theorem round_one_line (lines : w.module.OnOneLine) (line : OneLine requested) :
    (∀ e, w.round t layout requested = .error e → ∀ name ∈ e.names, OneLine name)
      ∧ (∀ next, w.round t layout requested = .ok (.onward next) → next.module.OnOneLine)
      ∧ ∀ reached decl, w.round t layout requested = .ok (.arrived reached decl) → reached.OnOneLine := by
  refine ⟨?_, ?_, ?_⟩
  · intro e failed
    unfold round at failed
    split at failed
    · obtain rfl := Except.error.inj failed
      simpa [ResolutionError.names] using line
    · split at failed
      · next fault lost =>
          obtain rfl := Except.error.inj failed
          exact follow_target_names lines line lost
      · next reached own followed =>
          obtain ⟨_, ownLine⟩ := (follow_target_ok.mp followed).one_line lines
          split at failed
          · obtain rfl := Except.error.inj failed
            simpa [ResolutionError.names] using line
          · exact meet_names line ownLine failed
  · intro next onward
    obtain ⟨_, reached, own, leads, _, met⟩ := round_ok.mp onward
    obtain ⟨decl, _, _, rfl⟩ := meet_onward.mp met
    exact (leads.one_line lines).1
  · intro arrived decl ended
    obtain ⟨_, reached, own, leads, _, met⟩ := round_ok.mp ended
    obtain ⟨_, _, rfl⟩ := meet_arrived.mp met
    exact (leads.one_line lines).1

/-- By induction on the rounds: what is carried on is that the module of the target is in one line. -/
theorem follow_one_line (lines : w.module.OnOneLine) (line : OneLine requested) :
    (∀ e, w.follow t layout requested = .error e → ∀ name ∈ e.names, OneLine name)
      ∧ ∀ reached decl, w.follow t layout requested = .ok (reached, decl) → reached.OnOneLine := by
  fun_induction follow t layout requested w with
  | case1 w fault failed =>
      have round := (round_one_line lines line).1 fault failed
      refine ⟨?_, by simp⟩
      intro e same
      obtain rfl := Except.error.inj same
      exact round
  | case2 w m decl arrived =>
      have round := (round_one_line lines line).2.2 m decl arrived
      refine ⟨by simp, ?_⟩
      intro reached decl same
      obtain ⟨rfl, rfl⟩ := Prod.mk.inj (Except.ok.inj same)
      exact round
  | case3 w next onward ih => exact ih ((round_one_line lines line).2.1 next onward)

end AliasWalk

/-- What is said of a name that gives no struct is said in names in one line. -/
theorem resolve_names {e : ResolutionError} (lines : m.OnOneLine) (line : OneLine name)
    (failed : resolveStruct t layout m name = .error e) : ∀ name ∈ e.names, OneLine name := by
  have path := lines.path
  unfold resolveStruct at failed
  split at failed
  · obtain rfl := Except.error.inj failed
    simpa [ResolutionError.names] using ⟨line, path⟩
  · split at failed
    · obtain rfl := Except.error.inj failed
      simpa [ResolutionError.names] using line
    · split at failed
      · cases failed
      · next decl _ =>
          have walk := @AliasWalk.follow_one_line t layout name (.start m name decl.target) lines line
          rcases Outcome.bind_error.mp failed with lost | ⟨⟨found, struct⟩, arrived, ended⟩
          · exact walk.1 e lost
          · have foundPath := (walk.2 found struct arrived).path
            simp only at ended
            split at ended
            · obtain rfl := Except.error.inj ended
              simpa [ResolutionError.names] using ⟨line, foundPath, struct.name.one_line⟩
            · cases ended
      · obtain rfl := Except.error.inj failed
        simpa [ResolutionError.names] using line

end

/-! The names of a run. -/

/-- No error in the loading of templates speaks of a name. -/
theorem Registry.load_error_names {t : File.Tree} {source : TemplateSource} {cause : TemplateError}
    (failed : Registry.load t source = .error cause) : cause.names = [] := by
  unfold Registry.load at failed
  rcases Outcome.bind_error.mp failed with unread | ⟨files, _, failed⟩
  · unfold Registry.sources at unread
    split at unread
    · cases unread
    · split at unread
      · obtain ⟨fault, _, rfl⟩ := Outcome.map_error_error.mp unread
        rfl
      · obtain rfl := Except.error.inj unread
        rfl
  · rcases Outcome.bind_error.mp failed with unsound | ⟨set, _, incomplete⟩
    · obtain ⟨fault, _, rfl⟩ := Outcome.map_error_error.mp unsound
      rfl
    · unfold Registry.ofSet at incomplete
      split at incomplete
      · cases incomplete
      · obtain rfl := Except.error.inj incomplete
        rfl

namespace EmitRequest

variable {r : EmitRequest} {registry : Registry} {e : Error}

theorem write_fault_names {file : File.Path} {pieces : List String} {sink : Sink} {next : Sink → Emission}
    (later : ∀ after, (next after).fault = some e → e.names = [])
    (failed : (Emission.write file pieces sink next).fault = some e) : e.names = [] := by
  unfold Emission.write at failed
  split at failed
  · exact later _ failed
  · obtain rfl := Option.some.inj failed
    rfl

theorem render_error_names {name : TemplateName} {subject : String} {context : Template.Value} {cause : TemplateError}
    (failed : registry.render name subject context = .error cause) : (Error.template cause).names = [] := by
  obtain ⟨fault, _, rfl⟩ := Outcome.map_error_error.mp failed
  rfl

theorem emit_fields_fault_names {fields : List FieldDescriptor} {index : Nat} {sink : Sink}
    (failed : (r.emitFields registry index fields sink).fault = some e) : e.names = [] := by
  induction fields generalizing index sink with
  | nil => cases failed
  | cons field rest ih =>
      rw [emit_fields_cons] at failed
      unfold Emission.announcing at failed
      simp only at failed
      split at failed
      · next cause broken =>
          obtain rfl := Option.some.inj failed
          exact render_error_names broken
      · exact write_fault_names (fun _ => ih) failed

/-- No error of an emission speaks of a name. -/
theorem emit_fault_names {sink : Sink} (failed : (r.emit registry sink).fault = some e) : e.names = [] := by
  unfold emit at failed
  split at failed
  · next cause broken =>
      obtain rfl := Option.some.inj failed
      exact render_error_names broken
  · exact write_fault_names (fun _ => emit_fields_fault_names) failed

theorem emit_file_fault_names {output : File.Path} {t : File.Tree}
    (failed : (r.emitFile registry output t).2.2 = some e) : e.names = [] := by
  rcases emit_file_cases output t with ⟨u, path, fault, all⟩ | ⟨sink, left, all⟩
  · rw [all] at failed
    obtain rfl := Option.some.inj failed
    rfl
  · rw [all] at failed
    simp only at failed
    unfold faultIn at failed
    split at failed
    · obtain rfl := Option.some.inj failed
      rfl
    · next other _ broken =>
        obtain rfl := Option.some.inj failed
        exact emit_fault_names broken
    · split at failed
      · cases failed
      · obtain rfl := Option.some.inj failed
        rfl

end EmitRequest

theorem Run.put_out_error_names {r : Run} {s : ResolvedStruct} {t : File.Tree} {e : Error}
    (failed : (r.putOut s t).1 = .error e) : e.names = [] := by
  unfold putOut at failed
  cases emitted : (r.request s).emitFile r.registry (plannedOutput r.config r.invocation s.name) t with
  | mk u rest =>
      obtain ⟨seen, fault⟩ := rest
      simp only [emitted] at failed
      cases fault with
      | none => cases failed
      | some other =>
          obtain rfl := Except.error.inj failed
          apply @EmitRequest.emit_file_fault_names (r.request s) r.registry
          rw [emitted]

/-- What is said of a reference that means no struct is said in names in one line, if the reference is. -/
theorem struct_of_names {t : File.Tree} {config : Config} {reference : String} {e : Error} (line : OneLine reference)
    (failed : structOf t config reference = .error e) : ∀ name ∈ e.names, OneLine name := by
  unfold structOf at failed
  rcases Outcome.bind_error.mp failed with refused | ⟨parsed, parses, failed⟩
  · obtain ⟨cause, malformed, rfl⟩ := Outcome.map_error_error.mp refused
    exact TypeReference.malformed_one_line line malformed
  obtain ⟨path, name⟩ := TypeReference.names_one_line line (Outcome.map_error_ok.mp parses)
  rcases Outcome.bind_error.mp failed with undiscovered | ⟨layout, _, failed⟩
  · obtain ⟨fault, missed, rfl⟩ := Outcome.map_error_error.mp undiscovered
    have crate : OneLine "crate" := by decide
    have names : (Error.resolution (.moduleLoad "crate" fault)).names = ["crate"] := by
      rw [Error.names, ResolutionError.names, CrateLayout.discover_error_names missed]
    rw [names]
    simpa using crate
  rcases Outcome.bind_error.mp failed with unloaded | ⟨m, loaded, failed⟩
  · obtain ⟨cause, lost, rfl⟩ := Outcome.map_error_error.mp unloaded
    exact Module.load_names path lost
  · obtain ⟨cause, unresolved, rfl⟩ := Outcome.map_error_error.mp failed
    exact resolve_names (Module.on_one_line_of_load (Outcome.map_error_ok.mp loaded)) name unresolved

/-- What is said of a run that fails is said in names in one line, if the reference is. -/
theorem generate_names {t : File.Tree} {config : Config} {invocation : Invocation} {reference : String} {e : Error}
    (line : OneLine reference) (failed : (generate config invocation reference t).1 = .error e) :
    ∀ name ∈ e.names, OneLine name := by
  rw [generate_eq] at failed
  cases prepared : prepare t config reference with
  | error other =>
      rw [prepared] at failed
      obtain rfl := Except.error.inj failed
      unfold prepare at prepared
      rcases Outcome.bind_error.mp prepared with unloaded | ⟨registry, _, later⟩
      · obtain ⟨cause, broken, rfl⟩ := Outcome.map_error_error.mp unloaded
        have none : (Error.template cause).names = [] := Registry.load_error_names broken
        rw [none]
        simp
      · rcases Outcome.bind_error.mp later with unfound | ⟨s, _, ended⟩
        · exact struct_of_names line unfound
        · cases ended
  | ok found =>
      obtain ⟨registry, s⟩ := found
      rw [prepared] at failed
      rw [Run.put_out_error_names failed]
      simp

end Accessors
