import JavaDeps.CheckedSort
import JavaDeps.Dot.Statement
import JavaDeps.Graph.Basic

/-!
# The drawing of a graph

Every node that is an end of an edge or was added by hand is drawn, and after the nodes every edge.
Hidden nodes, edges at them and hidden edges are left out.
-/

namespace JavaDeps

namespace Graph

def edgeEnds (g : Graph) : List Node :=
  g.calls.entries.flatMap (fun e => .file e.1 :: e.2.keys.map .file)
    ++ g.customEdges.entries.flatMap (fun e => e.1 :: e.2.keys)

def nodes (g : Graph) : SortedSet Node :=
  SortedSet.ofList (g.edgeEnds ++ g.customNodes.keys.map .named)

def hidesNode (g : Graph) (name : String) : Bool := g.hiddenNodes.contains (.str name)

def hidesEdge (g : Graph) (source target : String) : Bool :=
  g.hidesNode source || g.hidesNode target
    || g.hiddenEdges.contains (.str source, .str target)

end Graph

namespace Dot

/-! ## Nodes -/

/-- What stands in parentheses below the name of a node, and its colour. -/
def nodeDetails (g : Graph) (node : Node) (name : String) : Except Fault (String × String) :=
  match g.customNodes.get? (.str name) with
  | some custom => do
    let classes ←
      if custom.classes.isTruthy then (custom.classes.texts).map (Text.join ", ")
      else .ok "Custom Node"
    return (classes, custom.color.display)
  | none =>
    let color := (g.colors.getD (.str name) (.str defaultColor)).display
    match node with
    | .file p => match g.declared.get? p with
      | some classes => .ok (Text.join ", " classes.toList, color)
      | none => .ok ("Unknown", color)
    | .named _ => .ok ("Unknown", color)

def nodeStatement (g : Graph) (node : Node) : Except Fault NodeStatement := do
  let name := node.simpleName
  let (classes, color) ← nodeDetails g node name
  return { name := name, label := name ++ "\\n(" ++ classes ++ ")", color := color }

end Dot

def Graph.nodeStatements (g : Graph) : Except Fault (List Dot.NodeStatement) :=
  (g.nodes.toList.filter (fun n => !g.hidesNode n.simpleName)).mapM (Dot.nodeStatement g)

namespace Dot

/-! ## Labels -/

def distinctLabels (labels : Value) : Except Fault (List Atom) := do
  let items ← labels.elements
  let keys ← items.mapM Value.asKey
  CheckedSort.sort Atom.before (SortedSet.ofList keys).toList

/-- The label of an edge: no more than three texts, and how many others there are. -/
def labelText (labels : Value) : Except Fault String := do
  let distinct ← distinctLabels labels
  let texts ← Value.textsFrom 0 ((distinct.take 3).map .atom)
  return Text.join "\\n" texts
    ++ (if 3 < distinct.length then "\\n+ " ++ Text.ofNat (distinct.length - 3) ++ " more" else "")

/-- The statement of an edge. An edge without labels gets a general one. -/
def edgeStatement (general style source target : String) (labels : Value) :
    Except Fault EdgeStatement := do
  let label ← if labels.isTruthy then labelText labels else .ok general
  return { source := source, target := target, label := label, style := style }

/-! ## Edges -/

def namedEdges {α : Type} [BEq α] (name : α → String) (t : Table α (Targets α)) :
    List (String × String × Value) :=
  t.entries.flatMap (fun e => e.2.entries.map (fun f => (name e.1, name f.1, f.2.value)))

/-- The statements of those edges of a table that are not hidden. -/
def edgeStatementsOf (g : Graph) (general style : String)
    (edges : List (String × String × Value)) : Except Fault (List EdgeStatement) :=
  (edges.filter (fun e => !g.hidesEdge e.1 e.2.1)).mapM
    (fun e => edgeStatement general style e.1 e.2.1 e.2.2)

end Dot

def Graph.callStatements (g : Graph) : Except Fault (List Dot.EdgeStatement) :=
  Dot.edgeStatementsOf g "dependency" "" (Dot.namedEdges SourcePath.stem g.calls)

def Graph.customStatements (g : Graph) : Except Fault (List Dot.EdgeStatement) :=
  Dot.edgeStatementsOf g "custom dependency" ", style=dashed, color=red"
    (Dot.namedEdges Node.simpleName g.customEdges)

def Graph.edgeStatements (g : Graph) : Except Fault (List Dot.EdgeStatement) := do
  let calls ← g.callStatements
  let custom ← g.customStatements
  return calls ++ custom

namespace Dot

/-! ## The whole drawing -/

def opening : List Statement :=
  [.line "digraph JavaDependencies \x7b",
   .line "    rankdir=LR;",
   .line "    node [shape=box, style=filled, fillcolor=lightblue, fontname=\"Arial\"];",
   .line "    edge [fontname=\"Arial\", fontsize=9, color=darkblue];",
   .line "    graph [fontname=\"Arial Bold\", fontsize=14, label=\"Java Dependency Graph\"];",
   gap]

end Dot

def Graph.statements (g : Graph) : Except Fault (List Dot.Statement) := do
  let nodes ← g.nodeStatements
  let edges ← g.edgeStatements
  return Dot.opening ++ nodes.map .node ++ [Dot.gap, Dot.remark "Dependencies with method calls"]
    ++ edges.map .edge ++ [.line Dot.closing]

def Graph.dotLines (g : Graph) : Except Fault (List String) := do
  return Dot.linesOf (← g.statements)

end JavaDeps
