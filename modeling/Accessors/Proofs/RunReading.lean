import Accessors.File.Reading
import Accessors.Proofs.AliasChain
import Accessors.Proofs.RunStages

/-!
What a run reads. Finding the layout of a crate, walking to a module, following an alias and resolving a struct
are readings: each step looks at the files that the steps before it lead to. So whatever a run finds before it
writes is told by the files that it read or probed on the way.
-/

namespace Accessors

open File (Reading)

variable {t : File.Tree} {layout : CrateLayout} {requested : String}

/-- The layout of the crate under a directory, with the manifest and the candidates for its entry looked at. -/
def CrateLayout.discovery (root : File.Path) : Reading LoadFault CrateLayout := do
  let file := root.join ⟨"Cargo.toml"⟩
  let text ← Reading.text (LoadFault.unreadable file) file
  match (Toml.parse text).bind Manifest.ofToml? with
  | none => .ofExcept (.error (.invalidManifest file))
  | some manifest =>
      match manifest.packageName with
      | none => .ofExcept (.error (.noPackage file))
      | some packageName =>
          let crateName := crateIdent (manifest.libName.getD packageName)
          match manifest.libPath with
          | some path => pure ⟨root, crateName, root.join path⟩
          | none => do
              let entry ← Reading.firstFile (.noEntry root) (entryNames.map root.join)
              return ⟨root, crateName, entry⟩

theorem CrateLayout.run_discovery (root : File.Path) (t : File.Tree) :
    (discovery root).run t = discover t root := by
  unfold discovery discover
  simp only [Reading.run_bind, Reading.run_text]
  congr
  funext text
  cases (Toml.parse text).bind Manifest.ofToml? with
  | none => rfl
  | some manifest =>
      obtain ⟨packageName, libName, libPath⟩ := manifest
      cases packageName with
      | none => rfl
      | some packageName =>
          cases libPath with
          | some path => rfl
          | none =>
              simp only [Reading.run_bind, Reading.run_first_file, Reading.run_pure]
              cases (entryNames.map root.join).find? t.isFile <;> rfl

def readItems (file : File.Path) : Reading LoadFault (List Item) := do
  let text ← Reading.text (LoadFault.unreadable file) file
  .ofExcept ((Parsing.fileItems text).mapError (LoadFault.syntaxError file))

theorem run_read_items (file : File.Path) (t : File.Tree) : (readItems file).run t = itemsOf t file := rfl

namespace Walk

def opening (entry : File.Path) : Reading LoadFault Walk := do
  let items ← readItems entry
  return ⟨entry, items, directoryOf entry, directoryOf entry⟩

theorem run_opening (entry : File.Path) (t : File.Tree) : (opening entry).run t = start t entry := rfl

/-- The files that a module of a name is looked for in. -/
def candidates (w : Walk) (segment : String) : List File.Path :=
  [w.childDir.join ⟨segment ++ ".rs"⟩, (w.childDir.join ⟨segment⟩).join ⟨"mod.rs"⟩]

/-- The file of a module without a body, with its candidates probed. -/
def locating (w : Walk) (segment : String) : Option String → Reading LoadFault (File.Path × File.Path)
  | some text =>
      let file := w.attributeDir.join ⟨text⟩
      pure (file, directoryOf file)
  | none => do
      let inner := w.childDir.join ⟨segment⟩
      let file ← Reading.firstFile
        (.missingFile segment (w.childDir.join ⟨segment ++ ".rs"⟩) (inner.join ⟨"mod.rs"⟩)) (w.candidates segment)
      return (file, inner)

theorem run_locating (w : Walk) (segment : String) (named : Option String) (t : File.Tree) :
    (w.locating segment named).run t = w.locate t segment named := by
  cases named with
  | some text => rfl
  | none =>
      unfold locating locate candidates
      simp only [Reading.run_bind, Reading.run_first_file, Reading.run_pure, List.find?_cons, List.find?_nil]
      cases t.isFile (w.childDir.join ⟨segment ++ ".rs"⟩) with
      | true => rfl
      | false =>
          cases t.isFile ((w.childDir.join ⟨segment⟩).join ⟨"mod.rs"⟩) <;> rfl

def descending (w : Walk) (segment : String) : Reading LoadFault Walk :=
  match w.items.findSome? (moduleDeclared segment) with
  | none => .ofExcept (.error (.undeclared segment w.file))
  | some (_, some body) =>
      let dir := w.childDir.join ⟨segment⟩
      pure ⟨w.file, body, dir, dir⟩
  | some (named, none) => do
      let (file, childDir) ← w.locating segment named
      let items ← readItems file
      return ⟨file, items, childDir, directoryOf file⟩

theorem run_descending (w : Walk) (segment : String) (t : File.Tree) :
    (w.descending segment).run t = w.descend t segment := by
  unfold descending descend
  cases w.items.findSome? (moduleDeclared segment) with
  | none => rfl
  | some declared =>
      obtain ⟨named, body⟩ := declared
      cases body with
      | some items => rfl
      | none =>
          simp only [Reading.run_bind, run_locating, run_read_items, Reading.run_pure]
          rfl

def walking : Walk → List String → Reading LoadFault Walk
  | w, [] => pure w
  | w, segment :: rest => do walking (← w.descending segment) rest

theorem run_walking (w : Walk) (segments : List String) (t : File.Tree) :
    (w.walking segments).run t = segments.foldlM (descend t) w := by
  induction segments generalizing w with
  | nil => rfl
  | cons segment rest ih =>
      rw [walking, List.foldlM_cons, Reading.run_bind, run_descending]
      congr
      funext next
      exact ih next

end Walk

namespace Module

def loading (layout : CrateLayout) (segments : List String) : Reading ResolutionError Module :=
  let loaded : Reading LoadFault Module := do
    let entry ← Walk.opening layout.entry
    let walk ← entry.walking (segments.drop 1)
    return ⟨segments, walk.file, walk.items⟩
  loaded.mapError (ResolutionError.moduleLoad (Text.join "::" segments))

theorem run_loading (layout : CrateLayout) (segments : List String) (t : File.Tree) :
    (loading layout segments).run t = loadSegments t layout segments := by
  unfold loading loadSegments
  simp only [Reading.run_map_error, Reading.run_bind, Walk.run_opening, Walk.run_walking, Reading.run_pure]
  rfl

end Module

namespace AliasWalk

def heading (layout : CrateLayout) (requested : String) (w : AliasWalk) :
    Reading ResolutionError (Module × String) :=
  match AliasTarget.classify w.module w.target with
  | .here name => pure (w.module, name)
  | .inModule segments name => do
      let m ← Module.loading layout segments
      return (m, name)
  | .foreign signature => .ofExcept (.error (.notAStruct requested (.written signature)))

theorem run_heading (w : AliasWalk) (t : File.Tree) :
    (w.heading layout requested).run t = followTarget t layout requested w.module w.target := by
  unfold heading followTarget
  cases AliasTarget.classify w.module w.target with
  | here name => rfl
  | inModule segments name =>
      simp only [Reading.run_bind, Module.run_loading, Reading.run_pure]
      rfl
  | foreign signature => rfl

def rounding (layout : CrateLayout) (requested : String) (w : AliasWalk) : Reading ResolutionError AliasRound :=
  if w.visited.length > longestChain then .ofExcept (.error (.aliasCycle requested))
  else do
    let (m, name) ← w.heading layout requested
    .ofExcept <|
      if visitKey m name ∈ w.visited then .error (.aliasCycle requested) else w.meet requested m name

theorem run_rounding (w : AliasWalk) (t : File.Tree) :
    (w.rounding layout requested).run t = w.round t layout requested := by
  unfold rounding round
  split
  · rfl
  · simp only [Reading.run_bind, run_heading, Reading.run_of_except]
    cases followTarget t layout requested w.module w.target <;> rfl

/-- Rounds until a struct is reached. When the rounds are spent the chain is too long. -/
def following (layout : CrateLayout) (requested : String) :
    Nat → AliasWalk → Reading ResolutionError (Module × StructDecl)
  | 0, _ => .ofExcept (.error (.aliasCycle requested))
  | rounds + 1, w => do
      match ← w.rounding layout requested with
      | .arrived m decl => pure (m, decl)
      | .onward next => following layout requested rounds next

theorem run_following {rounds : Nat} {w : AliasWalk} (enough : longestChain < rounds + w.visited.length)
    (t : File.Tree) : (following layout requested rounds w).run t = w.follow t layout requested := by
  -- every round spends one and visits one name, so when none is left the chain is too long anyway
  induction rounds generalizing w with
  | zero =>
      have crowded : w.round t layout requested = .error (.aliasCycle requested) := by
        unfold round
        rw [if_pos (by omega)]
      rw [follow_of_error crowded]
      rfl
  | succ rounds ih =>
      rw [following, Reading.run_bind, run_rounding]
      cases came : w.round t layout requested with
      | error fault =>
          rw [follow_of_error came]
          rfl
      | ok out =>
          cases out with
          | arrived m decl =>
              rw [follow_of_arrived came]
              rfl
          | onward next =>
              have grown := visited_of_onward came
              rw [follow_of_onward came]
              exact ih (by omega)

end AliasWalk

def resolving (layout : CrateLayout) (m : Module) (name : String) : Reading ResolutionError ResolvedStruct :=
  match Symbol.find? m.symbols name with
  | none => .ofExcept (.error (.typeNotFound name m.path))
  | some symbol =>
      if !symbol.kind.isType then .ofExcept (.error (.notATypeDeclaration name symbol.kind))
      else
        match symbol.item with
        | .struct decl => pure (.ofDecl name m decl)
        | .typeAlias decl => do
            let (found, struct) ← (AliasWalk.start m name decl.target).following layout name longestChain
            if found.path ≠ m.path then
              .ofExcept (.error (.unsupportedAlias name (.elsewhere found.path struct.name.text)))
            else pure (.ofDecl name found struct)
        | _ => .ofExcept (.error (.notAStruct name (.declared symbol.kind name)))

theorem run_resolving (layout : CrateLayout) (m : Module) (name : String) (t : File.Tree) :
    (resolving layout m name).run t = resolveStruct t layout m name := by
  unfold resolving resolveStruct
  cases Symbol.find? m.symbols name with
  | none => rfl
  | some symbol =>
      obtain ⟨spelling, kind, item⟩ := symbol
      simp only
      cases kind.isType with
      | false => rfl
      | true =>
          cases item with
          | typeAlias decl =>
              have enough : longestChain < longestChain + (AliasWalk.start m name decl.target).visited.length := by
                simp [AliasWalk.start]
              simp only [Bool.not_true, Bool.false_eq_true, if_false, Reading.run_bind, AliasWalk.run_following enough]
              congr
              funext reached
              obtain ⟨found, struct⟩ := reached
              by_cases elsewhere : found.path ≠ m.path
              · simp only [if_pos elsewhere, Reading.run_of_except]
              · simp only [if_neg elsewhere, Reading.run_pure]
          | _ => rfl

def finding (config : Config) (reference : String) : Reading Error ResolvedStruct := do
  let reference ← Reading.ofExcept ((TypeReference.parse reference).mapError .usage)
  let layout ← (CrateLayout.discovery config.crateRoot).mapError fun fault =>
    .resolution (.moduleLoad "crate" fault)
  let segments ← Reading.ofExcept <| (Module.normalize layout reference.modulePath).mapError fun fault =>
    .resolution (.moduleLoad reference.modulePath fault)
  let m ← (Module.loading layout segments).mapError .resolution
  (resolving layout m reference.typeName).mapError .resolution

theorem run_finding (config : Config) (reference : String) (t : File.Tree) :
    (finding config reference).run t = structOf t config reference := by
  unfold finding structOf
  simp only [Reading.run_bind, Reading.run_of_except, Reading.run_map_error, CrateLayout.run_discovery,
    Module.run_loading, run_resolving]
  cases TypeReference.parse reference with
  | error malformed => rfl
  | ok parsed =>
      simp only [Outcome.map_error_of_ok, bind, Except.bind]
      cases CrateLayout.discover t config.crateRoot with
      | error fault => rfl
      | ok layout =>
          simp only [Outcome.map_error_of_ok, Module.load, bind, Except.bind]
          cases Module.normalize layout parsed.modulePath <;> rfl

/-- What a run looks at before it writes. Without templates it looks at nothing. -/
def runLooks (t : File.Tree) (config : Config) (reference : String) : List File.Look :=
  match Registry.load t config.templateSource with
  | .ok _ => (finding config reference).looks t
  | .error _ => []

theorem run_looks_of_load {config : Config} {registry : Registry} (reference : String)
    (loaded : Registry.load t config.templateSource = .ok registry) :
    runLooks t config reference = (finding config reference).looks t := by
  unfold runLooks
  rw [loaded]

end Accessors
