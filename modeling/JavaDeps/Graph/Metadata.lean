import JavaDeps.Dot.Graph
import JavaDeps.Value.Json

/-!
# The description of a graph

Beside the drawing, a graph is described by a record: its size, for every node the classes and the
calls in both directions, and the edits. Nodes are listed under their simple names; of nodes that
share a name, the last one is described.
-/

namespace JavaDeps

/-- The elements of labels; none when there are no labels. -/
def Value.labelList (labels : Value) : Except Fault (List Value) :=
  if labels.isTruthy then labels.elements else .ok []

abbrev Calls := Table String (List Value)

namespace Calls

def replaceWith (c : Calls) (name : String) (labels : Value) : Except Fault Calls := do
  return c.set name (← labels.labelList)

/-- Enters labels, together with those that are there: each label once, in ascending order. -/
def mergeWith (c : Calls) (name : String) (labels : Value) : Except Fault Calls :=
  match c.get? name with
  | some present => do
    let all := present ++ (← labels.elements)
    let keys ← all.mapM Value.asKey
    return c.set name ((SortedSet.ofList keys).toList.map .atom)
  | none => c.replaceWith name labels

def toValue (c : Calls) : Value := .obj (c.mapValues Value.list).entries

end Calls

/-- The description of a node. -/
structure FileInfo where
  classes : List Value
  outgoing : Calls
  incoming : Calls
  isCustom : Bool

def FileInfo.toValue (i : FileInfo) : Value :=
  .obj
    [("classes", .list i.classes), ("outgoing_calls", i.outgoing.toValue),
     ("incoming_calls", i.incoming.toValue), ("is_custom", .bool i.isCustom)]

def CustomNode.toValue (n : CustomNode) : Value :=
  .obj [("classes", n.classes), ("color", n.color)]

namespace Graph

/-- The edges between files from a node, with the simple names of their targets. -/
def callsFrom (g : Graph) : Node → List (String × Value)
  | .file p => (g.calls.getD p Table.empty).entries.map (fun e => (e.1.stem, e.2.value))
  | .named _ => []

/-- The edges between files to a node, with the simple names of their sources. -/
def callsTo (g : Graph) : Node → List (String × Value)
  | .file p => g.calls.entries.filterMap (fun e =>
      (e.2.get? p).map (fun labels => (e.1.stem, labels.value)))
  | .named _ => []

/-- The added edges from a node, with the simple names of their targets. -/
def customFrom (g : Graph) (n : Node) : List (String × Value) :=
  (g.customEdges.getD n Table.empty).entries.map (fun e => (e.1.simpleName, e.2.value))

/-- The added edges to a node, with the simple names of their sources. -/
def customTo (g : Graph) (n : Node) : List (String × Value) :=
  g.customEdges.entries.filterMap (fun e =>
    (e.2.get? n).map (fun labels => (e.1.simpleName, labels.value)))

/-- The calls on the given edges: added edges are merged with the others. -/
def gatherCalls (calls custom : List (String × Value)) : Except Fault Calls := do
  let c ← calls.foldlM (fun (c : Calls) e => c.replaceWith e.1 e.2) Table.empty
  custom.foldlM (fun (c : Calls) e => c.mergeWith e.1 e.2) c

/-- The classes that are listed for a node, and whether it counts as added by hand. -/
def listedClasses (g : Graph) (n : Node) : Except Fault (List Value × Bool) :=
  match g.customNodes.get? (.str n.simpleName) with
  | some custom => do return (← custom.classes.elements, true)
  | none => match n with
    | .file p => .ok ((g.classesOf p).toList.map Value.str, false)
    | .named _ => .ok ([], false)

def fileInfo (g : Graph) (n : Node) : Except Fault FileInfo := do
  let (classes, isCustom) ← g.listedClasses n
  let outgoing ← gatherCalls (g.callsFrom n) (g.customFrom n)
  let incoming ← gatherCalls (g.callsTo n) (g.customTo n)
  return ⟨classes, outgoing, incoming, isCustom⟩

/-- The nodes that are described. They are those that are drawn, but all sources are entered before
the targets: of nodes that compare as equal, another one may stand for the rest. -/
def describedNodes (g : Graph) : SortedSet Node :=
  SortedSet.ofList
    (g.calls.keys.map .file ++ g.calls.values.flatMap (fun row => row.keys.map .file)
      ++ g.customEdges.keys ++ g.customEdges.values.flatMap Table.keys
      ++ g.customNodes.keys.map .named)

def fileInfos (g : Graph) (order : List Node) : Except Fault (Table String FileInfo) :=
  order.foldlM
    (fun (t : Table String FileInfo) n => do return t.set n.simpleName (← g.fileInfo n)) Table.empty

def connectedCount (g : Graph) : Nat := (SortedSet.ofList g.edgeEnds).size

def customEdgeCount (g : Graph) : Nat := g.customEdges.total Table.size

/-- The added edges from a node, by the simple names of their targets. -/
def customRow (row : Targets Node) : Except Fault Calls :=
  row.entries.foldlM (fun (c : Calls) e => c.replaceWith e.1.simpleName e.2.value) Table.empty

def customRows (g : Graph) : Except Fault (Table String Value) :=
  g.customEdges.entries.foldlM
    (fun (t : Table String Value) e => do
      return t.set e.1.simpleName (← customRow e.2).toValue) Table.empty

def sizeInfo (g : Graph) (directory : String) : Value :=
  .obj
    [("source_directory", .str g.root.toText), ("total_files", .int g.connectedCount),
     ("total_classes", .int g.classes.size), ("analysis_date", .str directory),
     ("custom_nodes", .int g.customNodes.size), ("custom_edges", .int g.customEdgeCount)]

def editInfo (g : Graph) (customRows : Table String Value) : Value :=
  .obj
    [("hidden_nodes", .list (g.hiddenNodes.toList.map .atom)),
     ("hidden_edges", .list (g.hiddenEdges.toList.map (fun e =>
       .obj [("source", .atom e.1), ("target", .atom e.2)]))),
     ("custom_colors", .obj (g.colors.entries.map (fun e => (Value.keyText e.1, e.2)))),
     ("custom_nodes", .obj (g.customNodes.entries.map (fun e => (Value.keyText e.1, e.2.toValue)))),
     ("custom_edges", .obj customRows.entries)]

/-- The whole description, made in a directory. The nodes are described in the given order. -/
def describe (g : Graph) (directory : String) (order : List Node) : Except Fault Value := do
  let customRows ← g.customRows
  let files ← g.fileInfos order
  return .obj
    [("project_info", g.sizeInfo directory),
     ("files", .obj (files.mapValues FileInfo.toValue).entries),
     ("statistics", .obj [("most_connected_files", .list []), ("method_call_summary", .obj [])]),
     ("editing", g.editInfo customRows)]

def metadata (g : Graph) (directory : String) : Except Fault Value :=
  g.describe directory g.describedNodes.toList

end Graph

end JavaDeps
