import JavaDeps.SourcePath
import JavaDeps.Table
import JavaDeps.Value.Basic

/-!
# Dependency graphs

A graph holds what the analysis of a set of Java files found and what its user changed. Edges run
between files or named nodes and carry labels.

The file defines:
- `Node`, a file or a node with a name, and its simple name;
- `Labels`, what an edge carries;
- `Graph`, the graph itself, `Facts`, what the deeper analysis adds, `PageLinks`, the page functions
  drawn with it, and `Project`, all of them.
-/

namespace JavaDeps

/-- An end of an edge: a source file, or a node that was added by name. -/
inductive Node where
  | file (path : SourcePath)
  | named (name : Atom)
  deriving DecidableEq, Repr

namespace Node

/-- Two nodes are the same when they are the same file or have the same name. -/
def same : Node → Node → Bool
  | .file p, .file q => decide (p = q)
  | .named a, .named b => a == b
  | _, _ => false

instance : BEq Node := ⟨same⟩

instance : Ranked Node :=
  ⟨fun n => match n with
    | .file p => Ranked.rank p
    | .named a => Ranked.rank a⟩

/-- The name under which a node is drawn: the stem of a file, the stem of a name that is written
like a path, or the name itself. -/
def simpleName : Node → String
  | .file p => p.stem
  | .named (.str s) =>
    if s.toList.contains '/' || s.toList.contains '\\' then (SourcePath.ofText s).stem else s
  | .named a => a.display

end Node

/-- The labels of an edge. They are a list unless an edit put another value in its place. Labels
with the same tie are one list: a change to one shows in the other. -/
structure Labels where
  value : Value
  tie : Option Nat := none

namespace Labels

def none : Labels := ⟨.list [], Option.none⟩

instance : Inhabited Labels := ⟨none⟩

def ofNames (names : List String) : Labels := ⟨Value.ofNames names, Option.none⟩

end Labels

abbrev Targets (α : Type) [BEq α] := Table α Labels

/-- A node that was added by hand. -/
structure CustomNode where
  classes : Value
  color : Value

def defaultColor : String := "lightblue"

/-- What is known of the files and what the user changed. -/
structure Graph where
  /-- The directory that was analysed. -/
  root : SourcePath
  /-- The file that declares a class, by simple and by qualified name. -/
  classes : Table String SourcePath := Table.empty
  /-- The classes that a file declares. -/
  declared : Table SourcePath NameSet := Table.empty
  /-- Whether `declared` takes no further files, as after a selection. -/
  closed : Bool := false
  /-- The names that a file imports. -/
  imports : Table SourcePath NameSet := Table.empty
  /-- The calls between files. -/
  calls : Table SourcePath (Targets SourcePath) := Table.empty
  /-- The hidden nodes. -/
  hiddenNodes : SortedSet Atom := SortedSet.empty
  /-- The hidden edges. -/
  hiddenEdges : SortedSet (Atom × Atom) := SortedSet.empty
  /-- The colours that were set. -/
  colors : Table Atom Value := Table.empty
  /-- The nodes that were added. -/
  customNodes : Table Atom CustomNode := Table.empty
  /-- The edges that were added. -/
  customEdges : Table Node (Targets Node) := Table.empty
  /-- The next tie that no labels have. -/
  nextTie : Nat := 0

/-- What the deeper analysis finds. -/
structure Facts where
  /-- The file that declares an interface. -/
  interfaces : Table String SourcePath := Table.empty
  /-- The classes that implement an interface. -/
  implementations : Table String NameSet := Table.empty
  /-- The file that implements a service. -/
  serviceFiles : Table String SourcePath := Table.empty
  /-- The service that an implementation is for. -/
  implementedServices : Table String String := Table.empty
  /-- The types of the names that a file declares. -/
  fieldTypes : Table SourcePath (Table String String) := Table.empty
  /-- The calls in conditions. -/
  conditionCalls : Table SourcePath (Table SourcePath (List String)) := Table.empty
  /-- The chained calls. -/
  chainedCalls : Table SourcePath (Table SourcePath (List String)) := Table.empty
  /-- The types of the fields that a container fills in. -/
  injected : Table SourcePath NameSet := Table.empty
  /-- The functions that were selected for a closer look. -/
  selected : SortedSet Atom := SortedSet.empty
  /-- The dependencies of the selected functions, by file and function. -/
  methodDependencies : Table SourcePath (Table String NameSet) := Table.empty

/-- The number of pairs of an interface and a class that implements it. -/
def Facts.implementationCount (f : Facts) : Nat := f.implementations.total SortedSet.size

/-- A function of a page, as it is listed and drawn. -/
structure PageFunction where
  id : String
  functionId : Value
  name : Value
  controller : Value
  file : String
  description : String

/-- The page functions that are drawn, and the Java component that each of them calls. -/
structure PageLinks where
  functions : List PageFunction := []
  components : Table Atom Value := Table.empty

/-- How much an analysis looks at: calls only, also types and conditions, or page functions as
well. -/
inductive Depth where
  | plain
  | deep
  | paged
  deriving DecidableEq, Repr

/-- A project: its graph and all that is known beside it. -/
structure Project where
  depth : Depth
  /-- Whether the function table could be reached when the project was opened. -/
  hasStore : Bool
  graph : Graph
  facts : Facts := {}
  pages : PageLinks := {}

namespace Graph

def ofRoot (root : SourcePath) : Graph := { root := root }

instance : Inhabited Graph := ⟨ofRoot default⟩

/-- The file that declares a class other than in the given file. -/
def otherFile? (g : Graph) (file : SourcePath) (className : String) : Option SourcePath :=
  match g.classes.get? className with
  | some target => if target == file then none else some target
  | none => none

/-- The classes that a file declares; none for a file without any. -/
def classesOf (g : Graph) (file : SourcePath) : NameSet := g.declared.getD file SortedSet.empty

def labels (g : Graph) (source target : SourcePath) : Labels :=
  (g.calls.getD source Table.empty).getD target Labels.none

def customLabels (g : Graph) (source target : Node) : Labels :=
  (g.customEdges.getD source Table.empty).getD target Labels.none

def retie (tie : Nat) (v : Value) (l : Labels) : Labels :=
  if l.tie == some tie then { l with value := v } else l

def writeTied (g : Graph) (tie : Nat) (v : Value) : Graph :=
  { g with
    calls := g.calls.mapValues (Table.mapValues (retie tie v))
    customEdges := g.customEdges.mapValues (Table.mapValues (retie tie v)) }

def setLabels (g : Graph) (source target : SourcePath) (l : Labels) : Graph :=
  { g with calls := g.calls.alter source Table.empty (fun t => t.set target l) }

def setCustomLabels (g : Graph) (source target : Node) (l : Labels) : Graph :=
  { g with customEdges := g.customEdges.alter source Table.empty (fun t => t.set target l) }

/-- Changes the value of labels that were found in the graph, and of those tied to them. -/
def withValue (g : Graph) (l : Labels) (v : Value) (write : Graph → Labels → Graph) : Graph :=
  let g := write g { l with value := v }
  match l.tie with
  | some tie => g.writeTied tie v
  | none => g

def addCall (g : Graph) (source target : SourcePath) (label : String) : Except Fault Graph :=
  let l := g.labels source target
  match l.value with
  | .list items =>
    .ok (g.withValue l (.list (items ++ [.str label])) (fun g l => g.setLabels source target l))
  | v => .error (.noMember v.kind "append")

/-- Adds a label to the edge between two files unless it is there. -/
def addCallOnce (g : Graph) (source target : SourcePath) (label : String) : Except Fault Graph :=
  match (g.labels source target).value.holds label with
  | .error e => .error e
  | .ok true => .ok g
  | .ok false => g.addCall source target label

end Graph

end JavaDeps
