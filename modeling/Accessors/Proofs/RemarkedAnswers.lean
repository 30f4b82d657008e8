import Accessors.Proofs.MarkedWalks

/-!
What resolution answers in crates that differ in marks. The answer stays the same struct, or an error of the same
kind, unless a walk comes to a module that is named with a mark, or only one of the walks comes back to an alias by a
target with arguments and under another spelling.
-/

namespace Accessors

open File (Tree)

/-- The answers give structs of the same fields, under the same name and in the same module, or fail in one way. -/
def SameAnswer : Except ResolutionError ResolvedStruct → Except ResolutionError ResolvedStruct → Prop
  | .ok s, .ok s' => s.name = s'.name ∧ s.modulePath = s'.modulePath ∧ s.fields = s'.fields
  | .error e, .error e' => e.kind = e'.kind
  | _, _ => False

/-- The answer is that a module does not load. -/
def FailsToLoad (answer : Except ResolutionError ResolvedStruct) : Prop :=
  ∃ e, answer = .error e ∧ e.kind = .moduleLoad

section

variable {t t' : Tree} {layout : CrateLayout} {m m' : Module} {name : String} {decl decl' : AliasDecl}

theorem FailsToLoad.same_iff {a a' : Except ResolutionError ResolvedStruct} (fails : FailsToLoad a) :
    SameAnswer a a' ↔ FailsToLoad a' := by
  obtain ⟨e, rfl, kind⟩ := fails
  cases a' with
  | ok s => exact iff_of_false id fun ⟨_, failed, _⟩ => absurd failed (by simp)
  | error e' =>
      constructor
      · intro same
        exact ⟨e', rfl, same.symm.trans kind⟩
      · rintro ⟨_, ⟨⟩, kind'⟩
        exact kind.trans kind'.symm

theorem SameAnswer.symm {a a' : Except ResolutionError ResolvedStruct} (same : SameAnswer a a') : SameAnswer a' a := by
  revert same
  cases a <;> cases a'
  · exact Eq.symm
  · exact id
  · exact id
  · exact fun same => ⟨same.1.symm, same.2.1.symm, same.2.2.symm⟩

/-- A walk that fails is what the alias is told. -/
theorem resolve_of_failed_walk (finds : m.Finds name (.typeAlias decl)) {e : ResolutionError}
    (failed : (AliasWalk.start m name decl.target).follow t layout name = .error e) :
    resolveStruct t layout m name = .error e := by
  rw [resolve_alias finds, failed]
  rfl

theorem fails_to_load_of_marked (finds : m.Finds name (.typeAlias decl))
    (marked : (AliasWalk.start m name decl.target).ComesToMarked t layout name) :
    FailsToLoad (resolveStruct t layout m name) := by
  obtain ⟨e, failed, kind⟩ := AliasWalk.follow_marked marked
  exact ⟨e, resolve_of_failed_walk finds failed, kind⟩

/-- Walks that end alike are answered alike. -/
theorem same_answer_of_ends (modules : m.outline = m'.outline) (finds : m.Finds name (.typeAlias decl))
    (finds' : m'.Finds name (.typeAlias decl'))
    (ends : AliasWalk.SameEnd ((AliasWalk.start m name decl.target).follow t layout name)
      ((AliasWalk.start m' name decl'.target).follow t' layout name)) :
    SameAnswer (resolveStruct t layout m name) (resolveStruct t' layout m' name) := by
  have paths {a b : Module} (same : a.outline = b.outline) : a.path = b.path := by
    have outlined : a.outline.path = b.outline.path := congrArg Module.path same
    exact outlined
  rw [resolve_alias finds, resolve_alias finds']
  revert ends
  cases (AliasWalk.start m name decl.target).follow t layout name with
  | error e =>
      cases (AliasWalk.start m' name decl'.target).follow t' layout name with
      | error e' => exact id
      | ok found' => exact False.elim
  | ok found =>
      cases (AliasWalk.start m' name decl'.target).follow t' layout name with
      | error e' => exact False.elim
      | ok found' =>
          obtain ⟨reached, struct⟩ := found
          obtain ⟨reached', struct'⟩ := found'
          rintro ⟨outlines, fields⟩
          simp only [bind, Except.bind, paths modules, paths outlines]
          split
          · exact rfl
          · exact ⟨rfl, paths outlines, fields⟩

/-- A walk that is refused for a return and one that is told a cycle are answered in two ways. -/
theorem not_same_of_return {requested : String} (finds : m.Finds name (.typeAlias decl))
    (finds' : m'.Finds name (.typeAlias decl'))
    (returns : (AliasWalk.start m name decl.target).ComesToReturn t layout name)
    (cycle : (AliasWalk.start m' name decl'.target).follow t' layout name = .error (.aliasCycle requested)) :
    ¬ SameAnswer (resolveStruct t layout m name) (resolveStruct t' layout m' name) := by
  obtain ⟨e, failed, kind⟩ := AliasWalk.follow_returning returns
  rw [resolve_of_failed_walk finds failed, resolve_of_failed_walk finds' cycle]
  intro same
  exact absurd (kind.symm.trans same) (by simp [ResolutionError.kind])

/-- In a crate that differs in marks an alias is found where it was. The answers are the same just if both are that a
module does not load, in case either walk comes to a module that is named with a mark, and else if both walks or
neither come back to an alias by a target with arguments and under another spelling. -/
theorem marks_kept_iff (remarked : Remarked t t') (loaded : m.Loaded t layout)
    (finds : m.Finds name (.typeAlias decl)) :
    ∃ m' decl', m'.Loaded t' layout ∧ m'.segments = m.segments ∧ m'.Finds name (.typeAlias decl')
      ∧ (SameAnswer (resolveStruct t layout m name) (resolveStruct t' layout m' name)
        ↔ ((AliasWalk.start m name decl.target).ComesToMarked t layout name
              ∨ (AliasWalk.start m' name decl'.target).ComesToMarked t' layout name
              → FailsToLoad (resolveStruct t layout m name) ∧ FailsToLoad (resolveStruct t' layout m' name))
          ∧ (¬ (AliasWalk.start m name decl.target).ComesToMarked t layout name
              → ¬ (AliasWalk.start m' name decl'.target).ComesToMarked t' layout name
              → ((AliasWalk.start m name decl.target).ComesToReturn t layout name
                ↔ (AliasWalk.start m' name decl'.target).ComesToReturn t' layout name))) := by
  obtain ⟨rest, reached⟩ := loaded
  obtain ⟨m₀, m', found, reached', modules⟩ | ⟨_, _, failed, _⟩ :=
    (Module.load_alike layout remarked ("crate" :: rest)).cases
  case inr => exact absurd (reached.symm.trans failed) (by simp)
  obtain rfl := Except.ok.inj (found.symm.trans reached)
  have segments : m₀.outline.segments = m'.outline.segments := congrArg Module.segments modules
  obtain ⟨decl', finds', targets⟩ := Module.alias_alike modules rfl finds
  have alongside : AliasWalk.Alongside t t' layout (.start m₀ name decl.target) (.start m' name decl'.target)
      [((m₀, name), (m', name))] :=
    ⟨.start ⟨rest, found⟩ finds, .start ⟨rest, reached'⟩ finds', modules, targets.symm,
      List.forall_mem_singleton.mpr ⟨modules, rfl⟩⟩
  refine ⟨m', decl', ⟨rest, reached'⟩, segments.symm, finds', ?_, ?_⟩
  · intro same
    refine ⟨?_, fun plain plain' => ?_⟩
    · rintro (marked | marked')
      · have fails := fails_to_load_of_marked finds marked
        exact ⟨fails, fails.same_iff.mp same⟩
      · have fails' := fails_to_load_of_marked finds' marked'
        exact ⟨fails'.same_iff.mp same.symm, fails'⟩
    · rcases AliasWalk.side_by_side remarked alongside plain plain' with alike | ⟨returns, cycle⟩ | ⟨returns, cycle⟩
      · exact alike.returns
      · exact absurd same (not_same_of_return finds finds' returns cycle)
      · exact absurd same.symm (not_same_of_return finds' finds returns cycle)
  · rintro ⟨loads, returns⟩
    by_cases marked : (AliasWalk.start m₀ name decl.target).ComesToMarked t layout name
    · obtain ⟨fails, fails'⟩ := loads (Or.inl marked)
      exact fails.same_iff.mpr fails'
    by_cases marked' : (AliasWalk.start m' name decl'.target).ComesToMarked t' layout name
    · obtain ⟨fails, fails'⟩ := loads (Or.inr marked')
      exact fails.same_iff.mpr fails'
    rcases AliasWalk.side_by_side remarked alongside marked marked' with alike | ⟨returning, cycle⟩ | ⟨returning, cycle⟩
    · exact same_answer_of_ends modules finds finds' alike.ends
    · exact absurd ((returns marked marked').mp returning) (AliasWalk.no_return_of_cycle cycle)
    · exact absurd ((returns marked marked').mpr returning) (AliasWalk.no_return_of_cycle cycle)

end

namespace MarkSample

/-- A crate of one file, with an alias of an alias that is imported from a module below. -/
def text (through named : Ident) : String :=
  "mod m \x7b type Far = super::S; \x7d use crate::" ++ through.text ++ "::Far; struct S; type Own = " ++ named.text
    ++ ";"

def tree (through named : Ident) : Tree := ⟨[(["lib.rs".toList], .file (.text (text through named)))], []⟩

def layout : CrateLayout := ⟨⟨"/"⟩, "sample", ⟨"/lib.rs"⟩⟩

def below : Ident := SuggestionSample.plain

def belowRaw : Ident := ⟨"r#m", by decide +kernel⟩

def imported : Ident := ⟨"Far", by decide +kernel⟩

def importedRaw : Ident := ⟨"r#Far", by decide +kernel⟩

def struct : StructDecl := ⟨⟨"S", by decide +kernel⟩, ⟨[], []⟩, .unit⟩

def back : AliasDecl := ⟨imported, [], .path false [.plain ⟨"super", by decide +kernel⟩, .plain struct.name]⟩

def first (named : Ident) : AliasDecl := ⟨⟨"Own", by decide +kernel⟩, [], .path false [.plain named]⟩

def entry (through named : Ident) : Module where
  segments := ["crate"]
  file := ⟨"/lib.rs"⟩
  items := [.module below none (some [.typeAlias back]),
    .use false (.path SpellingSample.crate (.path through (.name imported))), .struct struct, .typeAlias (first named)]

def inner : Module := ⟨["crate", "m"], ⟨"/lib.rs"⟩, [.typeAlias back]⟩

section

variable {through named : Ident}

/-- The items of the file are all that has to be read of the crate. -/
def Reads (through named : Ident) : Prop := Parsing.fileItems (text through named) = .ok (entry through named).items

theorem start_of_reads (reads : Reads through named) :
    Walk.start (tree through named) layout.entry = .ok ⟨layout.entry, (entry through named).items, ⟨"/"⟩, ⟨"/"⟩⟩ := by
  have text : (tree through named).readText layout.entry = .ok (text through named) := by rfl
  unfold Walk.start itemsOf
  rw [text, Outcome.map_error_of_ok]
  simp only [bind, Except.bind]
  rw [reads]
  rfl

theorem entry_loads (reads : Reads through named) :
    Module.loadSegments (tree through named) layout ["crate"] = .ok (entry through named) :=
  Module.load_segments_ok.mpr ⟨_, _, start_of_reads reads, rfl, rfl⟩

theorem inner_loads (reads : Reads through named) :
    Module.loadSegments (tree through named) layout ["crate", "m"] = .ok inner :=
  Module.load_segments_ok.mpr ⟨_, _, start_of_reads reads, rfl, rfl⟩

theorem arrives (reads : Reads below named)
    (leads : AliasTarget.classify (entry below named) (first named).target = .inModule ["crate", "m"] "Far")
    (finds : (entry below named).Finds "S" (.struct struct)) :
    (AliasWalk.start (entry below named) "Own" (first named).target).follow (tree below named) layout "Own"
      = .ok (entry below named, struct) := by
  have there : (entry below named).Leads (tree below named) layout (first named).target inner "Far" := by
    unfold Module.Leads
    rw [leads]
    exact ⟨inner_loads reads, rfl⟩
  have again : inner.Leads (tree below named) layout back.target (entry below named) "S" := ⟨entry_loads reads, rfl⟩
  have key (name : String) : visitKey (entry below named) name = "crate::" ++ name := rfl
  have unseen : visitKey inner "Far" ∉ [visitKey (entry below named) "Own"] := by
    rw [key]
    decide +kernel
  have unseen' : visitKey (entry below named) "S" ∉ [visitKey inner "Far", visitKey (entry below named) "Own"] := by
    rw [key, key]
    decide +kernel
  have onward : (AliasWalk.start (entry below named) "Own" (first named).target).round (tree below named) layout "Own"
      = .ok (.onward ⟨inner, back.target, [visitKey inner "Far", visitKey (entry below named) "Own"]⟩) := by
    have finds : inner.Finds "Far" (.typeAlias back) := ⟨_, rfl, rfl⟩
    refine AliasWalk.round_ok.mpr ⟨?_, inner, "Far", there, unseen, AliasWalk.meet_onward.mpr ⟨back, finds, rfl, rfl⟩⟩
    simp [AliasWalk.start, longestChain]
  have arrived : (⟨inner, back.target, [visitKey inner "Far", visitKey (entry below named) "Own"]⟩ : AliasWalk).round
      (tree below named) layout "Own" = .ok (.arrived (entry below named) struct) := by
    refine AliasWalk.round_ok.mpr ⟨?_, _, "S", again, unseen', AliasWalk.meet_arrived.mpr ⟨finds, rfl, rfl⟩⟩
    simp [longestChain]
  rw [AliasWalk.follow_of_onward onward, AliasWalk.follow_of_arrived arrived]

end

theorem remarked {through through' named named' : Ident} (reads : Reads through named) (reads' : Reads through' named')
    (alike : (entry through named).items.map Item.outline = (entry through' named').items.map Item.outline) :
    Remarked (tree through named) (tree through' named') := by
  have rewritten : tree through' named'
      = (tree through named).put ["lib.rs".toList] (.file (.text (text through' named'))) := rfl
  have there : (tree through named).node? ["lib.rs".toList] = some (.file (.text (text through named))) := rfl
  rw [rewritten]
  apply Remarked.put there
  rw [reads, reads']
  exact congrArg some alike

theorem reads : Reads below imported := by rfl

theorem reads_raw_module : Reads belowRaw imported := by rfl

theorem reads_raw_target : Reads below importedRaw := by rfl

theorem resolves {named : Ident} (loads : (entry below named).Finds "Own" (.typeAlias (first named)))
    (follows : (AliasWalk.start (entry below named) "Own" (first named).target).follow (tree below named) layout "Own"
      = .ok (entry below named, struct)) :
    resolveStruct (tree below named) layout (entry below named) "Own"
      = .ok (.ofDecl "Own" (entry below named) struct) := by
  rw [resolve_alias loads, follows]
  simp [bind, Except.bind]

theorem follows_plain : (AliasWalk.start (entry below imported) "Own" (first imported).target).follow
    (tree below imported) layout "Own" = .ok (entry below imported, struct) :=
  arrives reads rfl ⟨_, rfl, rfl⟩

theorem follows_raw_target : (AliasWalk.start (entry below importedRaw) "Own" (first importedRaw).target).follow
    (tree below importedRaw) layout "Own" = .ok (entry below importedRaw, struct) :=
  arrives reads_raw_target rfl ⟨_, rfl, rfl⟩

theorem finds_plain : (entry below imported).Finds "Own" (.typeAlias (first imported)) := ⟨_, rfl, rfl⟩

end MarkSample

open MarkSample in
theorem marks_of_sample_kept : Remarked (tree below imported) (tree below importedRaw)
    ∧ (entry below imported).Loaded (tree below imported) layout
    ∧ (entry below imported).Finds "Own" (.typeAlias (first imported))
    ∧ SameAnswer (resolveStruct (tree below imported) layout (entry below imported) "Own")
        (resolveStruct (tree below importedRaw) layout (entry below importedRaw) "Own") := by
  have remarked : Remarked (tree below imported) (tree below importedRaw) := remarked reads reads_raw_target rfl
  have loaded : (entry below imported).Loaded (tree below imported) layout := ⟨[], entry_loads reads⟩
  have loadedRaw : (entry below importedRaw).Loaded (tree below importedRaw) layout :=
    ⟨[], entry_loads reads_raw_target⟩
  obtain ⟨m', decl', loaded', segments, finds', same⟩ := marks_kept_iff remarked loaded finds_plain
  obtain rfl : m' = entry below importedRaw :=
    loaded'.unique_of_path loadedRaw (congrArg (Text.join "::") segments)
  have finds : (entry below importedRaw).Finds "Own" (.typeAlias (first importedRaw)) := ⟨_, rfl, rfl⟩
  obtain rfl := Item.typeAlias.inj (finds'.unique finds)
  have plain := AliasWalk.plain_of_found follows_plain
  have plainRaw := AliasWalk.plain_of_found follows_raw_target
  refine ⟨remarked, loaded, finds_plain, same.mpr ⟨fun marked => ?_, fun _ _ => iff_of_false plain.2 plainRaw.2⟩⟩
  exact absurd marked (not_or.mpr ⟨plain.1, plainRaw.1⟩)

open MarkSample in
/-- An alias that is imported from a module by its name with a mark is lost. -/
theorem import_by_marked_module_lost : Remarked (tree below imported) (tree belowRaw imported)
    ∧ (entry below imported).Loaded (tree below imported) layout
    ∧ (entry belowRaw imported).Loaded (tree belowRaw imported) layout
    ∧ resolveStruct (tree below imported) layout (entry below imported) "Own"
      = .ok (.ofDecl "Own" (entry below imported) struct)
    ∧ FailsToLoad (resolveStruct (tree belowRaw imported) layout (entry belowRaw imported) "Own") := by
  have marked : (AliasTarget.classify (entry belowRaw imported) (first imported).target).Marked := by
    show ["crate", "r#m"].map unraw ≠ ["crate", "r#m"]
    decide +kernel
  have room : (AliasWalk.start (entry belowRaw imported) "Own" (first imported).target).HasRoom := by
    simp [AliasWalk.HasRoom, AliasWalk.start, longestChain]
  exact ⟨remarked reads reads_raw_module rfl, ⟨[], entry_loads reads⟩, ⟨[], entry_loads reads_raw_module⟩,
    resolves finds_plain follows_plain, fails_to_load_of_marked ⟨_, rfl, rfl⟩ ⟨_, .refl, room, marked⟩⟩

end Accessors
