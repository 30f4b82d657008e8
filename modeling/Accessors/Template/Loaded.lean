import Accessors.Template.Grammar
import Accessors.Template.Trim

/-!
Loaded templates. A template may have a parent, whose blocks it replaces, and libraries of macros. A set of
templates is sound if every parent and library is in it and no template is its own ancestor.
-/

namespace Accessors.Template

structure MacroDef where
  params : List (String × Option Operand)
  body : List Node
  deriving Inhabited

structure Loaded where
  name : String
  nodes : List Node
  parent : Option String
  blocks : List (String × List Node)
  macros : List (String × MacroDef)
  /-- The files macros are taken from, each with the name it is used under. -/
  libraries : List (String × String)
  deriving Inhabited

inductive LoadFault where
  | unparsable (file : String)
  | unreadable (file : String)
  | duplicateBlock (file name : String)
  | duplicateMacro (file name : String)
  | badParent (file : String)
  | missingLibrary (file library : String)
  deriving DecidableEq, Repr, Inhabited

def LoadFault.message : LoadFault → String
  | .unparsable file => "failed to parse '" ++ file ++ "'"
  | .unreadable file => "couldn't read '" ++ file ++ "'"
  | .duplicateBlock file name => "block `" ++ name ++ "` is duplicated in '" ++ file ++ "'"
  | .duplicateMacro file name => "macro `" ++ name ++ "` is already defined in '" ++ file ++ "'"
  | .badParent file => "'" ++ file ++ "' has a missing or circular parent"
  | .missingLibrary file library => "'" ++ file ++ "' loads macros from '" ++ library ++ "', which is missing"

/-- The blocks of some nodes, those inside other blocks included. -/
def blocksOf : List Node → List (String × List Node)
  | [] => []
  | .block _ name body _ :: rest => (name, body) :: blocksOf body ++ blocksOf rest
  | _ :: rest => blocksOf rest

/-- The first name that stands twice in a list. -/
def firstDuplicate? : List String → Option String
  | [] => none
  | name :: rest => if rest.contains name then some name else firstDuplicate? rest

def macroOf? : Node → Option (String × MacroDef)
  | .macroDef _ name params body _ => some (name, ⟨params, body⟩)
  | _ => none

def libraryOf? : Node → Option (String × String)
  | .library _ file name => some (file, name)
  | _ => none

def parentOf? : Node → Option String
  | .parent _ file => some file
  | _ => none

/-- The template that a source makes. -/
def Loaded.ofSource (name source : String) : Except LoadFault Loaded :=
  match Grammar.parse? source with
  | none => .error (.unparsable name)
  | some nodes =>
      let nodes := trimTemplate nodes
      let blocks := blocksOf nodes
      let macros := nodes.filterMap macroOf?
      match firstDuplicate? (blocks.map (·.1)), firstDuplicate? (macros.map (·.1)) with
      | some block, _ => .error (.duplicateBlock name block)
      | none, some duplicate => .error (.duplicateMacro name duplicate)
      | none, none =>
          .ok ⟨name, nodes, nodes.findSome? parentOf?, blocks, macros, nodes.filterMap libraryOf?⟩

/-- Templates of different names. -/
structure TemplateSet where
  templates : List Loaded
  deriving Inhabited

namespace TemplateSet

def find? (set : TemplateSet) (name : String) : Option Loaded :=
  set.templates.find? (·.name == name)

def ancestorRounds (set : TemplateSet) : Nat → Loaded → Option (List Loaded)
  | rounds, t =>
      match t.parent with
      | none => some []
      | some file =>
          match rounds, set.find? file with
          | rounds + 1, some up => (ancestorRounds set rounds up).map (up :: ·)
          | _, _ => none

/-- The parent of a template, its parent and so on; none if one is missing or there is no end. -/
def ancestors? (set : TemplateSet) (t : Loaded) : Option (List Loaded) :=
  ancestorRounds set set.templates.length t

/-- What is wrong with a template in a set. -/
def fault? (set : TemplateSet) (t : Loaded) : Option LoadFault :=
  if (set.ancestors? t).isNone then some (.badParent t.name)
  else
    (t.libraries.find? fun (file, _) => (set.find? file).isNone).map fun (file, _) =>
      .missingLibrary t.name file

/-- The set of some sources with their names, if it is sound. -/
def ofSources (sources : List (String × String)) : Except LoadFault TemplateSet := do
  let set : TemplateSet := ⟨← sources.mapM fun file => Loaded.ofSource file.1 file.2⟩
  match set.templates.findSome? set.fault? with
  | some fault => .error fault
  | none => .ok set

def namespaceRounds (set : TemplateSet) (library : String) : Nat → Loaded → Option Loaded
  | 0, _ => none
  | rounds + 1, t =>
      match t.libraries.reverse.find? fun (_, name) => name == library with
      | some (file, _) => set.find? file
      | none =>
          if library == "self" && !t.macros.isEmpty then some t
          else
            ((t.libraries.map (·.1)) ++ t.parent.toList).findSome? fun file =>
              (set.find? file).bind (namespaceRounds set library rounds)

/-- The macro that a template calls by a library's name, with the template that defines it. Libraries and a
parent bring their own libraries along. -/
def macro? (set : TemplateSet) (t : Loaded) (library name : String) : Option (Loaded × MacroDef) := do
  let home ← namespaceRounds set library (set.templates.length + 1) t
  return (home, ← home.macros.lookup name)

end TemplateSet

end Accessors.Template
