import JavaDeps.Dot.Graph

/-!
# The drawing of a project

A project that is looked at more deeply is drawn with further blocks inside the closing brace: the
implementations of services with the dependencies of their selected functions, and the page
functions with the components they call.
-/

namespace JavaDeps

/-! ## Implementations -/

namespace Dot

def dependencyLook (className use : String) : String × String :=
  if Text.within "Repository" className then ("lightyellow", "box")
  else if Text.within "Service" className then ("lightblue", "box")
  else if Text.within "Exception" className then ("mistyrose", "box")
  else if use == "enum" then ("lightgreen", "diamond")
  else ("white", "box")

def dependencyStyle (className use : String) : String :=
  if use == "exception" then ", color=\"red\""
  else if Text.within "Repository" className then ", color=\"orange\""
  else if Text.within "Service" className then ", color=\"blue\""
  else ""

/-- The statements for one dependency of a function. Its class gets a node unless the lines already
draw it. -/
def dependencyStatements (lines : List String) (file function dependency : String) :
    List Statement :=
  match Text.splitAtMost dependency '#' 1 with
  | [className, use] =>
    let look := dependencyLook className use
    let node :=
      if draws lines className then []
      else [.node { name := className, label := className, color := look.1, shape? := some look.2 }]
    let label := (if use == "constructor" then "new" else use) ++ " (" ++ function ++ ")"
    node ++ [.edge
      { source := file, target := className, label := label,
        style := dependencyStyle className use }]
  | _ => []

def functionStatements (lines : List String) (file function : String) (dependencies : NameSet) :
    List Statement :=
  if dependencies.isEmpty then []
  else
    [gap, remark (function ++ " method dependencies in " ++ file)]
      ++ dependencies.toList.flatMap (dependencyStatements lines file function)

def serviceStatements (lines : List String) (service file : String)
    (functions : Table String NameSet) : List Statement :=
  [.node { name := file, label := file ++ "\\n(Implementation)", color := "lightcoral",
           shape? := some "box" },
   .edge { source := service, target := file, label := "implements",
           style := ", color=\"red\", style=\"dashed\"" }]
    ++ functions.entries.flatMap (fun e => functionStatements lines file e.1 e.2)

end Dot

/-- The block of the implementations, given the lines before it. -/
def Facts.implementationStatements (f : Facts) (lines : List String) : List Dot.Statement :=
  [Dot.gap, Dot.remark "Service Implementation Nodes"]
    ++ f.serviceFiles.entries.flatMap (fun e =>
      match f.methodDependencies.get? e.2 with
      | some functions => Dot.serviceStatements lines e.1 e.2.stem functions
      | none => [])

/-! ## Page functions -/

namespace Dot

def pageNodeName (name : String) : String :=
  "HTML_" ++ Text.replace (Text.replace (Text.replace name " " "_") "()" "") "/" "_"

def pageEdge (source target : String) : Statement :=
  .edge { source := source, target := target, label := "calls",
          style := ", color=\"green\", style=\"bold\"" }

/-- The statements that link a page function to its component, which gets a node unless the lines
already draw it. -/
def componentStatements (lines : List String) (node : String) (component : Value) :
    List Statement :=
  let name := component.display
  if draws lines name && component.isTruthy then [pageEdge node name]
  else
    [.node { name := "Java_" ++ name, label := name ++ "\\n(Java Component)",
             color := "lightyellow" },
     pageEdge node ("Java_" ++ name)]

def pageStatements (lines : List String) (components : Table Atom Value) (f : PageFunction) :
    Except Fault (List Statement) := do
  let name ← f.name.textFor "replace"
  let node := pageNodeName name
  let links := match components.get? (.str name) with
    | some component => componentStatements lines node component
    | none => []
  return .node { name := node, label := name ++ "\\n(HTML Function)", color := "lightgreen",
                 shape? := some "ellipse" } :: links

end Dot

/-- The block of the page functions, given the lines before it. -/
def PageLinks.statements (p : PageLinks) (lines : List String) :
    Except Fault (List Dot.Statement) := do
  if p.functions.isEmpty then return []
  let each ← p.functions.mapM (Dot.pageStatements lines p.components)
  return [Dot.gap, Dot.remark "HTML Function Nodes"] ++ each.flatten

/-! ## The whole drawing -/

def Facts.drawInto (f : Facts) (lines : List String) : List String :=
  Dot.insertBeforeClosing lines (Dot.linesOf (f.implementationStatements lines))

def PageLinks.drawInto (p : PageLinks) (lines : List String) : Except Fault (List String) := do
  return Dot.insertBeforeClosing lines (Dot.linesOf (← p.statements lines))

def Project.dotLines (p : Project) : Except Fault (List String) := do
  let lines ← p.graph.dotLines
  match p.depth with
  | .plain => return lines
  | .deep => return p.facts.drawInto lines
  | .paged => p.pages.drawInto (p.facts.drawInto lines)

def Project.dotText (p : Project) : Except Fault String := do
  return Text.join "\n" (← p.dotLines)

end JavaDeps
