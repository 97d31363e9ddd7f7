import JavaDeps.Graph.Basic

/-!
# Findings

The analysis of a file gives findings, which are entered into the project one after the other.
Entering a finding can fail when an edit left a value in the way; what was entered before stays.
-/

namespace JavaDeps

/-- Something that the analysis found. -/
inductive Finding where
  /-- A file declares a class. -/
  | declares (file : SourcePath) (name qualified : String)
  /-- A file imports a name. -/
  | imports (file : SourcePath) (name : String)
  /-- A file uses another one; the label is added in any case. -/
  | uses (source target : SourcePath) (label : String)
  /-- A file uses another one; the label is added unless it is there. -/
  | usesOnce (source target : SourcePath) (label : String)
  /-- A file declares an interface. -/
  | declaresInterface (file : SourcePath) (name : String)
  /-- A class implements an interface. -/
  | implements (interface className : String)
  /-- A file implements a service. -/
  | servesIn (service implementation : String) (file : SourcePath)
  /-- A file declares a name with a type. -/
  | types (file : SourcePath) (name type : String)
  /-- A condition in a file calls into another one. -/
  | conditionUses (source target : SourcePath) (label : String)
  /-- A chain of calls in a file starts in another one. -/
  | chainUses (source target : SourcePath) (label : String)
  /-- A container fills in a field of this type. -/
  | injects (file : SourcePath) (type : String)
  /-- The declared names of a file are listed, even if there are none. -/
  | listsTypes (file : SourcePath)
  /-- The calls in conditions of a file are listed, even if there are none. -/
  | listsConditions (file : SourcePath)
  /-- The chains of a file are listed, even if there are none. -/
  | listsChains (file : SourcePath)
  /-- The injected fields of a file are listed, even if there are none. -/
  | listsInjected (file : SourcePath)
  deriving DecidableEq, Repr

def addLabel (t : Table SourcePath (Table SourcePath (List String))) (source target : SourcePath)
    (label : String) : Table SourcePath (Table SourcePath (List String)) :=
  t.alter source Table.empty (fun row => row.alter target [] (· ++ [label]))

namespace Project

def withGraph (p : Project) (r : Except Fault Graph) : Except Fault Unit × Project :=
  match r with
  | .ok g => (.ok (), { p with graph := g })
  | .error e => (.error e, p)

def withFacts (p : Project) (f : Facts → Facts) : Except Fault Unit × Project :=
  (.ok (), { p with facts := f p.facts })

/-- Enters a declared class. The class tables are written even if the file is not taken in. -/
def declare (p : Project) (file : SourcePath) (name qualified : String) :
    Except Fault Unit × Project :=
  let g := p.graph
  let g := { g with classes := (g.classes.set name file).set qualified file }
  if g.closed && !g.declared.contains file then
    (.error (.missingKey (Text.quoted file.toText)), { p with graph := g })
  else
    let declared := g.declared.alter file SortedSet.empty (fun s => s.insert name)
    (.ok (), { p with graph := { g with declared := declared } })

def enter (p : Project) : Finding → Except Fault Unit × Project
  | .declares file name qualified => p.declare file name qualified
  | .imports file name =>
    let g := p.graph
    p.withGraph
      (.ok { g with imports := g.imports.alter file SortedSet.empty (fun s => s.insert name) })
  | .uses source target label => p.withGraph (p.graph.addCall source target label)
  | .usesOnce source target label => p.withGraph (p.graph.addCallOnce source target label)
  | .declaresInterface file name =>
    p.withFacts (fun f => { f with interfaces := f.interfaces.set name file })
  | .implements interface className =>
    p.withFacts (fun f =>
      { f with
        implementations :=
          f.implementations.alter interface SortedSet.empty (fun s => s.insert className) })
  | .servesIn service implementation file =>
    p.withFacts (fun f =>
      { f with
        serviceFiles := f.serviceFiles.set service file
        implementedServices := f.implementedServices.set implementation service })
  | .types file name type =>
    p.withFacts (fun f =>
      { f with fieldTypes := f.fieldTypes.alter file Table.empty (fun t => t.set name type) })
  | .conditionUses source target label =>
    p.withFacts (fun f =>
      { f with conditionCalls := addLabel f.conditionCalls source target label })
  | .chainUses source target label =>
    p.withFacts (fun f => { f with chainedCalls := addLabel f.chainedCalls source target label })
  | .injects file type =>
    p.withFacts (fun f =>
      { f with injected := f.injected.alter file SortedSet.empty (fun s => s.insert type) })
  | .listsTypes file =>
    p.withFacts (fun f => { f with fieldTypes := f.fieldTypes.ensure file Table.empty })
  | .listsConditions file =>
    p.withFacts (fun f => { f with conditionCalls := f.conditionCalls.ensure file Table.empty })
  | .listsChains file =>
    p.withFacts (fun f => { f with chainedCalls := f.chainedCalls.ensure file Table.empty })
  | .listsInjected file =>
    p.withFacts (fun f => { f with injected := f.injected.ensure file SortedSet.empty })

def enterAll (p : Project) : List Finding → Except Fault Unit × Project
  | [] => (.ok (), p)
  | finding :: rest => match p.enter finding with
    | (.ok _, p) => p.enterAll rest
    | (.error e, p) => (.error e, p)

end Project

end JavaDeps
