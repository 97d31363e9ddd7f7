import JavaDeps.Graph.Basic

/-!
# Restricting a graph

A graph is restricted to chosen classes and chosen calls. A call is written as method, source path
and target path with underscores between them.

The file defines:
- `Restriction`, what is kept;
- `Graph.restrict`, the restricted graph.
-/

namespace JavaDeps

/-- What is kept of a graph. -/
structure Restriction where
  classes : Table String SourcePath := Table.empty
  declared : Table SourcePath NameSet := Table.empty
  calls : Table SourcePath (Targets SourcePath) := Table.empty

def Graph.relativePath (g : Graph) (file : SourcePath) : Except Fault String :=
  match file.relativeTo? g.root with
  | some path => .ok path.toText
  | none => .error (.outside file.toText g.root.toText)

namespace Restriction

def declaresChosen (g : Graph) (chosen : NameSet) (file : SourcePath) : Bool :=
  (g.classesOf file).toList.any chosen.contains

/-- Whether the relative path of a file stands in a chosen call. -/
def namedByCall (g : Graph) (calls : NameSet) (file : SourcePath) : Except Fault Bool :=
  if calls.isEmpty then .ok false
  else do
    let path ← g.relativePath file
    return calls.toList.any (fun call => Text.within path call)

/-- Whether a file is chosen, by one of its classes or in a call. -/
def choosesFile (g : Graph) (chosen calls : NameSet) (file : SourcePath) : Except Fault Bool :=
  if declaresChosen g chosen file then .ok true else namedByCall g calls file

def keepClasses (g : Graph) (chosen : NameSet) : Restriction :=
  g.classes.entries.foldl
    (fun r e =>
      if chosen.contains e.1 then
        let declared := match g.declared.get? e.2 with
          | some names => r.declared.set e.2 names
          | none => r.declared
        { r with classes := r.classes.set e.1 e.2, declared := declared }
      else r) {}

/-- Keeps the classes of a file. A class that is kept already is not entered again. -/
def keepFile (g : Graph) (file : SourcePath) (r : Restriction) : Restriction :=
  let names := g.classesOf file
  names.toList.foldl
    (fun r name =>
      if r.classes.contains name then r
      else { r with
        classes := r.classes.set name file
        declared := r.declared.set file names }) r

def keepEdge (g : Graph) (source target : SourcePath) (labels : Labels) (r : Restriction) :
    Restriction :=
  let calls := r.calls.alter source Table.empty (fun t => t.set target labels)
  keepFile g target (keepFile g source { r with calls := calls })

def chosenLabels (calls : NameSet) (source target : String) (labels : List Value) : List Value :=
  labels.filter (fun label =>
    calls.contains (label.display ++ "_" ++ source ++ "_" ++ target))

/-- The labels that are kept of an edge between chosen files: those that a chosen call names, or
all of them when both files declare a chosen class. -/
def labelsKept (g : Graph) (chosen calls : NameSet) (source target : SourcePath)
    (labels : Labels) : Except Fault (Option Labels) :=
  if calls.isEmpty then .ok (some labels)
  else do
    let sourcePath ← g.relativePath source
    let targetPath ← g.relativePath target
    let named := chosenLabels calls sourcePath targetPath (← labels.value.elements)
    if !named.isEmpty then return some ⟨.list named, none⟩
    else if declaresChosen g chosen source && declaresChosen g chosen target
        && labels.value.isTruthy then
      return some labels
    else return none

def visitEdge (g : Graph) (chosen calls : NameSet) (source : SourcePath) (r : Restriction)
    (e : SourcePath × Labels) : Except Fault Restriction := do
  if ← choosesFile g chosen calls e.1 then
    match ← labelsKept g chosen calls source e.1 e.2 with
    | some labels => return keepEdge g source e.1 labels r
    | none => return r
  else return r

def visitSource (g : Graph) (chosen calls : NameSet) (r : Restriction)
    (e : SourcePath × Targets SourcePath) : Except Fault Restriction := do
  if ← choosesFile g chosen calls e.1 then
    e.2.entries.foldlM (visitEdge g chosen calls e.1) r
  else return r

def ofGraph (g : Graph) (chosen calls : NameSet) : Except Fault Restriction :=
  g.calls.entries.foldlM (visitSource g chosen calls) (keepClasses g chosen)

end Restriction

namespace Graph

def showAll (g : Graph) : Graph :=
  { g with hiddenNodes := SortedSet.empty, hiddenEdges := SortedSet.empty }

/-- Restricts a graph to chosen classes and calls, with nothing hidden. -/
def restrict (g : Graph) (chosen calls : NameSet) : Except Fault Graph := do
  let r ← Restriction.ofGraph g chosen calls
  let g := { g with
    classes := r.classes
    declared := r.declared
    closed := true
    calls := r.calls }
  return g.showAll

end Graph

end JavaDeps
