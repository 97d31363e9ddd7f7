import JavaDeps.Graph.Basic

/-!
# Edits

The changes that a user makes to a graph: hiding, colouring, adding and deleting nodes and edges,
and relabelling edges. Nodes are given by values, since an edit may carry any value.

Every edit gives its answer together with the graph after it. An edit that fails may have changed
the graph before.
-/

namespace JavaDeps

/-- Whether a node is the one that an edit names: a file by its stem, any other node by its name. -/
def Node.isNamed (n : Node) (v : Value) : Bool :=
  match n with
  | .file p => v.isText p.stem
  | .named a => match v with
    | .atom b => a.equals b
    | _ => false

namespace Graph

def allOrNothing (g : Graph) (r : Except Fault Graph) : Except Fault Unit × Graph :=
  match r with
  | .ok g => (.ok (), g)
  | .error e => (.error e, g)

/-! ## Hiding -/

def hideNode (g : Graph) (node : Value) : Except Fault Unit × Graph :=
  g.allOrNothing do
    let key ← node.asKey
    return { g with hiddenNodes := g.hiddenNodes.insert key }

def showNode (g : Graph) (node : Value) : Except Fault Unit × Graph :=
  g.allOrNothing do
    let key ← node.asKey
    return { g with hiddenNodes := g.hiddenNodes.erase key }

def edgeKey (source target : Value) : Except Fault (Atom × Atom) := do
  return (← source.asKey, ← target.asKey)

def hideEdge (g : Graph) (source target : Value) : Except Fault Unit × Graph :=
  g.allOrNothing do
    let key ← edgeKey source target
    return { g with hiddenEdges := g.hiddenEdges.insert key }

def showEdge (g : Graph) (source target : Value) : Except Fault Unit × Graph :=
  g.allOrNothing do
    let key ← edgeKey source target
    return { g with hiddenEdges := g.hiddenEdges.erase key }

/-! ## Colours -/

def recolor (t : Table Atom CustomNode) (key : Atom) (color : Value) : Table Atom CustomNode :=
  match t.get? key with
  | some node => t.set key { node with color := color }
  | none => t

def setColor (g : Graph) (node color : Value) : Except Fault Unit × Graph :=
  g.allOrNothing do
    let key ← node.asKey
    return { g with
      colors := g.colors.set key color
      customNodes := recolor g.customNodes key color }

def resetColor (g : Graph) (node : Value) : Except Fault Unit × Graph :=
  g.allOrNothing do
    let key ← node.asKey
    return { g with
      colors := g.colors.erase key
      customNodes := recolor g.customNodes key (.str defaultColor) }

/-! ## Nodes -/

/-- Adds a node by hand. A node without a name is not added. -/
def addNode (g : Graph) (node classes color : Value) : Except Fault Bool × Graph :=
  if node.isTruthy then
    match node.asKey with
    | .ok key =>
      let classes := if classes.isTruthy then classes else .list []
      (.ok true, { g with customNodes := g.customNodes.set key ⟨classes, color⟩ })
    | .error e => (.error e, g)
  else (.ok false, g)

def eraseFirst {α β : Type} [BEq α] (p : α → Bool) (t : Table α β) : Table α β :=
  ⟨t.entries.eraseP (fun e => p e.1), t.distinct.sublist (List.eraseP_sublist.map _)⟩

/-- Removes the rows of a node, and from every other row the first target that is the node. -/
def detach {α : Type} [BEq α] (isNode : α → Bool) (t : Table α (Targets α)) : Table α (Targets α) :=
  (t.filterKeys (fun k => !isNode k)).mapValues (eraseFirst isNode)

def deleteNode (g : Graph) (node : Value) : Except Fault Unit × Graph :=
  g.allOrNothing do
    let key ← node.asKey
    return { g with
      customNodes := g.customNodes.erase key
      calls := detach (fun p => node.isText p.stem) g.calls
      customEdges := detach (fun n => node.isText n.simpleName) g.customEdges
      hiddenNodes := g.hiddenNodes.erase key
      hiddenEdges := g.hiddenEdges.filter (fun e => !e.1.equals key && !e.2.equals key)
      colors := g.colors.erase key }

/-! ## Edges -/

/-- The node that a key names: an added one, or the first file with that stem. -/
def findNode (g : Graph) (key : Atom) : Option Node :=
  if g.customNodes.contains key then some (.named key)
  else (g.declared.keys.find? (fun p => (Value.atom key).isText p.stem)).map .file

/-- Adds labels to an added edge, which is created if it is not there. -/
def extendCustom (g : Graph) (source target : Node) (methods : Value) : Except Fault Bool × Graph :=
  let l := g.customLabels source target
  let g := g.setCustomLabels source target l
  match l.value with
  | .list items =>
    if methods.isTruthy then
      match methods.elements with
      | .ok more =>
        (.ok true,
          g.withValue l (.list (items ++ more)) (fun g l => g.setCustomLabels source target l))
      | .error e => (.error e, g)
    else (.ok true, g)
  | v => (.error (.noMember v.kind "extend"), g)

/-- Adds an edge between two nodes that are there and not hidden. -/
def addEdge (g : Graph) (source target methods : Value) : Except Fault Bool × Graph :=
  match source.asKey with
  | .error e => (.error e, g)
  | .ok s =>
    if g.hiddenNodes.contains s then (.ok false, g)
    else match target.asKey with
      | .error e => (.error e, g)
      | .ok t =>
        if g.hiddenNodes.contains t then (.ok false, g)
        else match g.findNode s, g.findNode t with
          | some s, some t => g.extendCustom s t methods
          | _, _ => (.ok false, g)

/-- The first key that passes a test, and in its row the first target that passes another. -/
def findEdge {α : Type} [BEq α] (isSource isTarget : α → Bool) (t : Table α (Targets α)) :
    Option (α × α) :=
  match t.entries.find? (fun e => isSource e.1) with
  | some e => (e.2.keys.find? isTarget).map (fun target => (e.1, target))
  | none => none

def removeEdge {α : Type} [BEq α] (t : Table α (Targets α)) (e : α × α) : Table α (Targets α) :=
  t.set e.1 ((t.getD e.1 Table.empty).erase e.2)

def dropEmptyRow {α : Type} [BEq α] (t : Table α (Targets α)) (source : α) : Table α (Targets α) :=
  if (t.getD source Table.empty).isEmpty then t.erase source else t

def callEdge? (g : Graph) (source target : Value) : Option (SourcePath × SourcePath) :=
  findEdge (fun p => source.isText p.stem) (fun p => target.isText p.stem) g.calls

def customEdge? (g : Graph) (source target : Value) : Option (Node × Node) :=
  findEdge (fun n => n.isNamed source) (fun n => n.isNamed target) g.customEdges

def deleteEdge (g : Graph) (source target : Value) : Except Fault Bool × Graph :=
  let call? := g.callEdge? source target
  let custom? := g.customEdge? source target
  let calls := match call? with
    | some e => removeEdge g.calls e
    | none => g.calls
  let customEdges := match custom? with
    | some e => dropEmptyRow (removeEdge g.customEdges e) e.1
    | none => g.customEdges
  let g := { g with calls := calls, customEdges := customEdges }
  match edgeKey source target with
  | .ok key =>
    (.ok (call?.isSome || custom?.isSome), { g with hiddenEdges := g.hiddenEdges.erase key })
  | .error e => (.error e, g)

/-- Puts other labels on an edge, and tells whether there was one. When the edge is there both as a
call and as an added edge, the two get one list of labels. -/
def relabel (g : Graph) (source target labels : Value) : Bool × Graph :=
  let call? := g.callEdge? source target
  let custom? := g.customEdge? source target
  let tie := if call?.isSome && custom?.isSome then some g.nextTie else none
  let g := { g with nextTie := if tie.isSome then g.nextTie + 1 else g.nextTie }
  let g := match call? with
    | some e => g.setLabels e.1 e.2 ⟨labels, tie⟩
    | none => g
  let g := match custom? with
    | some e => g.setCustomLabels e.1 e.2 ⟨labels, tie⟩
    | none => g
  (call?.isSome || custom?.isSome, g)

end Graph

end JavaDeps
