import JavaDeps.Graph.Edit
import JavaDeps.Output.Generate

/-!
# Edit requests

A user edits the graph by commands. A command that lacks what it needs is not known.

The file defines:
- `Command`, the fields of a request;
- `Command.run`, which carries it out and answers with a record.
-/

namespace JavaDeps

/-- The fields of an edit request; a missing field is nothing. -/
structure Command where
  name : Value
  node : Value
  source : Value
  target : Value
  color : Value
  classes : Value
  methods : Value

def answer (success : Bool) (message : String) : Value :=
  .obj [("success", .bool success), ("message", .str message)]

def unknownCommand : Value := answer false "Unknown command"

namespace Command

def ofFields (fields : List (String × Value)) : Command :=
  let field (name : String) : Value := (fields.lookup name).getD .null
  { name := field "command", node := field "node", source := field "source"
    target := field "target", color := field "color", classes := field "classes"
    methods := field "methods" }

def edgeText (c : Command) : String := c.source.display ++ "->" ++ c.target.display

def onNode (c : Command) (edit : Graph → Except Fault Unit × Graph) (done : String) :
    Action Value := do
  onGraph edit
  return answer true ("Node " ++ c.node.display ++ " " ++ done)

/-- Carries out an edit of an edge that tells whether it worked. -/
def onEdge (c : Command) (edit : Graph → Except Fault Bool × Graph) (done verb : String) :
    Action Value := do
  if ← onGraph edit then return answer true ("Edge " ++ c.edgeText ++ " " ++ done)
  else return answer false ("Failed to " ++ verb ++ " edge")

def onShownEdge (c : Command) (edit : Graph → Except Fault Unit × Graph) (done : String) :
    Action Value := do
  onGraph edit
  return answer true ("Edge " ++ c.edgeText ++ " " ++ done)

def orElse (v other : Value) : Value := if v.isTruthy then v else other

def addNode (c : Command) : Action Value := do
  let _ ← onGraph (fun g =>
    g.addNode c.node (orElse c.classes (.list [])) (orElse c.color (.str defaultColor)))
  return answer true ("Node " ++ c.node.display ++ " added")

def regenerate (drawing : String) : Action Value := do
  let _ ← generate drawing
  return .obj
    [("success", .bool true), ("message", .str "Graph regenerated"), ("reload", .bool true)]

def runOnNode (c : Command) (name : String) : Action Value :=
  match name with
  | "hide_node" => c.onNode (fun g => g.hideNode c.node) "hidden"
  | "show_node" => c.onNode (fun g => g.showNode c.node) "shown"
  | "delete_node" => c.onNode (fun g => g.deleteNode c.node) "deleted"
  | "add_node" => c.addNode
  | "reset_color" => c.onNode (fun g => g.resetColor c.node) "color reset"
  | "set_color" =>
    if c.color.isTruthy then
      c.onNode (fun g => g.setColor c.node c.color) ("color set to " ++ c.color.display)
    else pure unknownCommand
  | _ => pure unknownCommand

def runOnEdge (c : Command) (name : String) : Action Value :=
  match name with
  | "add_edge" =>
    c.onEdge (fun g => g.addEdge c.source c.target (orElse c.methods (.list []))) "added" "add"
  | "delete_edge" => c.onEdge (fun g => g.deleteEdge c.source c.target) "deleted" "delete"
  | "update_edge_label" =>
    if c.methods.isTruthy then
      c.onEdge
        (fun g => match g.relabel c.source c.target c.methods with
          | (found, g) => (.ok found, g)) "updated" "update"
    else pure unknownCommand
  | "hide_edge" => c.onShownEdge (fun g => g.hideEdge c.source c.target) "hidden"
  | "show_edge" => c.onShownEdge (fun g => g.showEdge c.source c.target) "shown"
  | _ => pure unknownCommand

def nodeCommands : List String :=
  ["hide_node", "show_node", "delete_node", "add_node", "reset_color", "set_color"]

def edgeCommands : List String :=
  ["add_edge", "delete_edge", "update_edge_label", "hide_edge", "show_edge"]

/-- Carries out a command. The drawing is the file that a new drawing is written to. -/
def run (c : Command) (drawing : String) : Action Value :=
  match c.name with
  | .str name =>
    if nodeCommands.contains name && c.node.isTruthy then c.runOnNode name
    else if edgeCommands.contains name && c.source.isTruthy && c.target.isTruthy then
      c.runOnEdge name
    else if name == "regenerate" then regenerate drawing
    else pure unknownCommand
  | _ => pure unknownCommand

end Command

end JavaDeps
