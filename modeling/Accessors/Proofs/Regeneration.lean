import Accessors.Proofs.OutputOnly
import Accessors.Proofs.RunReading
import Accessors.Proofs.SettledLooks
import Accessors.Proofs.TemplateSearch

/-!
Generating again. A run that succeeded has settled all that it looked at, so a second run after it finds the
same struct, as long as the output is none of the files that were looked at. Its output has its place already,
with the directories above it, and the same text is written into it.
-/

namespace Accessors

open File (Reading)

/-! What a run that succeeds has settled. -/

theorem settles_discovery (root : File.Path) : (CrateLayout.discovery root).Settles := by
  unfold CrateLayout.discovery
  apply Reading.settles_bind (Reading.settles_text _ _)
  intro text
  split
  · exact Reading.settles_of_except _
  · split
    · exact Reading.settles_of_except _
    · split
      · exact Reading.settles_pure _
      · refine Reading.settles_bind (Reading.settles_first_file _ ?_) fun entry => Reading.settles_pure _
        have parts : File.Tree.Anchors (root.join ⟨"src/lib.rs"⟩) (root.join ⟨"src/main.rs"⟩) :=
          @File.Tree.anchors_of_join ⟨"src/lib.rs"⟩ ⟨"src/main.rs"⟩ "main.rs".toList root ["src".toList] []
            "lib.rs".toList (by decide) (by decide) (by decide) (by decide)
        simp [CrateLayout.entryNames, parts]

theorem settles_read_items (file : File.Path) : (readItems file).Settles :=
  Reading.settles_bind (Reading.settles_text _ _) fun _ => Reading.settles_of_except _

namespace Ident

theorem unraw_ne_nil (name : Ident) : (unraw name.text).toList ≠ [] := by
  obtain ⟨some, whole⟩ := name.whole
  unfold unraw
  split
  · next rest cut =>
      rw [String.toList_ofList]
      intro none
      rw [Text.append_of_cutStart? cut, none] at whole
      exact absurd whole (by decide)
  · exact some

theorem unraw_slashless (name : Ident) : '/' ∉ (unraw name.text).toList := by
  intro member
  rcases name.unraw_chars '/' member with mark | continues
  · exact absurd mark (by decide)
  · exact absurd continues (by decide)

end Ident

namespace Walk

theorem settles_opening (entry : File.Path) : (opening entry).Settles :=
  Reading.settles_bind (settles_read_items entry) fun _ => Reading.settles_pure _

/-- The two files that a module is looked for in stand below one directory. -/
theorem anchors_of_candidates (w : Walk) (name : Ident) :
    (w.candidates (unraw name.text)).Pairwise File.Tree.Anchors := by
  have some := name.unraw_ne_nil
  have plain := name.unraw_slashless
  have plainFile : '/' ∉ (unraw name.text ++ ".rs").toList := by
    rw [String.toList_append]
    intro member
    rcases List.mem_append.mp member with inside | ending
    · exact plain inside
    · exact absurd ending (by decide)
  have first : Text.splitAt '/' (unraw name.text ++ ".rs").toList = [(unraw name.text ++ ".rs").toList] :=
    Text.splitAt_of_notMem plainFile
  have second : Text.splitAt '/' (unraw name.text ++ "/" ++ "mod.rs").toList
      = [(unraw name.text).toList, "mod.rs".toList] := by
    have shape : (unraw name.text ++ "/" ++ "mod.rs").toList = (unraw name.text).toList ++ '/' :: "mod.rs".toList := by
      simp
    rw [shape, Text.splitAt_append, Text.splitAt_of_notMem plain]
    rfl
  have relative : (⟨unraw name.text ++ "/" ++ "mod.rs"⟩ : File.Path).isAbsolute = false := by
    obtain ⟨c, rest, chars⟩ := List.exists_cons_of_ne_nil some
    have shape : (unraw name.text ++ "/" ++ "mod.rs").toList = c :: (rest ++ "/mod.rs".toList) := by simp [chars]
    exact File.Path.relative_of_head shape fun same => plain (by rw [chars, same]; exact List.mem_cons_self)
  have parts : File.Tree.Anchors (w.childDir.join ⟨unraw name.text ++ ".rs"⟩)
      (w.childDir.join ⟨unraw name.text ++ "/" ++ "mod.rs"⟩) := by
    exact @File.Tree.anchors_of_join ⟨_⟩ ⟨_⟩ (unraw name.text).toList w.childDir [] ["mod.rs".toList] _
      (File.Path.relative_of_slashless plainFile) relative first second
  unfold candidates
  rw [File.Path.join_name some plain (by decide)]
  simpa using parts

theorem settles_locating (w : Walk) (name : Ident) (named : Option String) :
    (w.locating (unraw name.text) named).Settles := by
  cases named with
  | some text => exact Reading.settles_pure _
  | none =>
      exact Reading.settles_bind (Reading.settles_first_file _ (w.anchors_of_candidates name))
        fun _ => Reading.settles_pure _

theorem settles_descending (w : Walk) (segment : String) : (w.descending segment).Settles := by
  unfold descending
  split
  · exact Reading.settles_of_except _
  · exact Reading.settles_pure _
  · next named declared =>
      obtain ⟨item, _, tells⟩ := List.exists_of_findSome?_eq_some declared
      unfold moduleDeclared at tells
      split at tells
      · next name file body _ =>
          split at tells
          · next same =>
              rw [← same]
              exact Reading.settles_bind (w.settles_locating name named) fun _ =>
                Reading.settles_bind (settles_read_items _) fun _ => Reading.settles_pure _
          · exact absurd tells (by simp)
      · exact absurd tells (by simp)

theorem settles_walking (w : Walk) (segments : List String) : (w.walking segments).Settles := by
  induction segments generalizing w with
  | nil => exact Reading.settles_pure w
  | cons segment rest ih => exact Reading.settles_bind (w.settles_descending segment) fun next => ih next

end Walk

theorem settles_loading (layout : CrateLayout) (segments : List String) :
    (Module.loading layout segments).Settles :=
  Reading.settles_map_error <| Reading.settles_bind (Walk.settles_opening layout.entry) fun entry =>
    Reading.settles_bind (entry.settles_walking _) fun _ => Reading.settles_pure _

namespace AliasWalk

variable {layout : CrateLayout} {requested : String}

theorem settles_heading (w : AliasWalk) : (w.heading layout requested).Settles := by
  unfold heading
  split
  · exact Reading.settles_pure _
  · exact Reading.settles_bind (settles_loading layout _) fun _ => Reading.settles_pure _
  · exact Reading.settles_of_except _

theorem settles_following (rounds : Nat) (w : AliasWalk) : (following layout requested rounds w).Settles := by
  induction rounds generalizing w with
  | zero => exact Reading.settles_of_except _
  | succ rounds ih =>
      have round : (w.rounding layout requested).Settles := by
        unfold rounding
        split
        · exact Reading.settles_of_except _
        · exact Reading.settles_bind w.settles_heading fun _ => Reading.settles_of_except _
      apply Reading.settles_bind round
      intro out
      cases out with
      | arrived m decl => exact Reading.settles_pure _
      | onward next => exact ih next

end AliasWalk

theorem settles_resolving (layout : CrateLayout) (m : Module) (name : String) :
    (resolving layout m name).Settles := by
  unfold resolving
  split
  · exact Reading.settles_of_except _
  · split
    · exact Reading.settles_of_except _
    · split
      · exact Reading.settles_pure _
      · apply Reading.settles_bind (AliasWalk.settles_following _ _)
        intro reached
        split
        split
        · exact Reading.settles_of_except _
        · exact Reading.settles_pure _
      · exact Reading.settles_of_except _

theorem settles_finding (config : Config) (reference : String) : (finding config reference).Settles :=
  Reading.settles_bind (Reading.settles_of_except _) fun _ =>
    Reading.settles_bind (Reading.settles_map_error (settles_discovery _)) fun layout =>
      Reading.settles_bind (Reading.settles_of_except _) fun segments =>
        Reading.settles_bind (Reading.settles_map_error (settles_loading layout segments)) fun m =>
          Reading.settles_map_error (settles_resolving layout m _)

/-! The second run. -/

/-- An emission without a fault is repeated without a change: what it would make and put is there. -/
theorem EmitRequest.emit_into_again {r : EmitRequest} {registry : Registry} {output : File.Path} {t u : File.Tree}
    (done : r.emitInto registry output t = (u, none)) : r.emitInto registry output u = (u, none) := by
  obtain ⟨m, place, made, opened, put, fault⟩ := emit_into_done (by rw [done])
  obtain ⟨new, free⟩ := File.Tree.opening_ok opened
  have below := File.Tree.new_place_ne_nil new
  rw [done] at put
  simp only at put
  have here : u.node? place = some (.file (.text (r.emit registry (.keeping none "")).sink.text)) := by
    rw [put, File.Tree.node?_put m place place _ below, if_pos rfl]
  have kept : m.Keeps u := by
    rw [put]
    exact File.Tree.keeps_put below free
  have ready : u.opening output = .ok (some place) := by
    unfold File.Tree.opening
    rw [File.Tree.new_place_kept new kept]
    simp only [bind, Except.bind, here]
  unfold emitInto
  rw [File.Tree.make_above_again made rfl kept]
  simp only [ready, emitAt]
  rw [File.Tree.put_same below here, fault]

/-- A run that succeeded finds the same again after it, unless its output is among the files that it read or
probed. -/
theorem prepare_again {config : Config} {reference : String} {t u : File.Tree} {output : File.Path}
    {registry : Registry} {s : ResolvedStruct} (found : prepare t config reference = .ok (registry, s))
    (written : t.Written u output)
    (unread : ∀ look ∈ runLooks t config reference, t.target look.path ≠ t.target output)
    (unsearched : ¬ config.templateSource.Reads t (t.target output)) :
    prepare u config reference = .ok (registry, s) := by
  obtain ⟨loading, resolved⟩ := prepare_ok.mp found
  rw [run_looks_of_load reference loading] at unread
  rw [← run_finding] at resolved
  have same : ∀ look ∈ (finding config reference).looks t, look.SameIn t u := by
    intro look member
    have settled := settles_finding config reference t s resolved look member
    exact File.Look.same_of_settled settled written (unread look member)
  refine prepare_ok.mpr ⟨registry_kept loading written unsearched, ?_⟩
  rw [← run_finding, (finding config reference).depends t u same]
  exact resolved

/-- Generating again after a run that succeeded gives the same report and changes nothing at all, as long as the
output of the run is none of the files that the run read or probed, and no template file of its search. -/
theorem regenerate {config : Config} {invocation : Invocation} {reference : String} {t u : File.Tree}
    {report : Report} (ran : generate config invocation reference t = (.ok report, u))
    (unread : ∀ look ∈ runLooks t config reference, t.target look.path ≠ t.target report.outputPath)
    (unsearched : ¬ config.templateSource.Reads t (t.target report.outputPath)) :
    generate config invocation reference u = (.ok report, u) := by
  cases found : prepare t config reference with
  | error e =>
      rw [generate_of_missing found] at ran
      exact nomatch (Prod.mk.inj ran).1
  | ok both =>
      obtain ⟨registry, s⟩ := both
      rw [generate_of_found found] at ran
      obtain ⟨outcomes, trees⟩ := Prod.mk.inj ran
      obtain ⟨well, shape⟩ := outcome_of_ok outcomes
      have output : report.outputPath = plannedOutput config invocation s.name := by rw [← shape]
      rw [output] at unread unsearched
      have emitted : emission config invocation registry s t = (u, none) := Prod.ext trees well
      have written := EmitRequest.written_of_emit ((⟨config, invocation, registry⟩ : Run).request s) registry
        (plannedOutput config invocation s.name) t
      have after : t.Written u (plannedOutput config invocation s.name) := by
        rw [emission] at trees
        rw [← trees]
        exact written
      have again : emission config invocation registry s u = (u, none) := EmitRequest.emit_into_again emitted
      rw [generate_of_found (prepare_again found after unread unsearched), again, shape]
      rfl

theorem regenerates_sample :
    ∃ u, generate GenerationSample.config GenerationSample.invocation "crate.S" GenerationSample.tree
        = (.ok GenerationSample.report, u)
      ∧ generate GenerationSample.config GenerationSample.invocation "crate.S" u
        = (.ok GenerationSample.report, u) := by
  obtain ⟨u, ran⟩ := GenerationSample.generates
  have unread : ∀ look ∈ runLooks GenerationSample.tree GenerationSample.config "crate.S",
      GenerationSample.tree.target look.path ≠ GenerationSample.tree.target GenerationSample.report.outputPath := by
    have loaded : Registry.load GenerationSample.tree GenerationSample.config.templateSource = .ok .builtIn := by
      have source : GenerationSample.config.templateSource = .builtIn := rfl
      rw [source, Registry.load_built_in]
    rw [run_looks_of_load "crate.S" loaded]
    decide +kernel
  have unsearched : ¬ GenerationSample.config.templateSource.Reads GenerationSample.tree
      (GenerationSample.tree.target GenerationSample.report.outputPath) := id
  exact ⟨u, ran, regenerate ran unread unsearched⟩

end Accessors
