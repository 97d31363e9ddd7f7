import JavaDeps.Graph.Metadata

/-!
# Summaries

A report on a graph: its size, its edits and the files that make most calls. A deeper analysis adds
a report on what it found.

The file defines:
- `Graph.summary`, the report on a graph;
- `Facts.summary`, the report on the further facts.
-/

namespace JavaDeps

def doubleRule : String := String.ofList (List.replicate 50 '=')

/-- The entries with larger numbers first; entries of one number keep their order. -/
def byCount {α : Type} (count : α → Nat) (xs : List α) : List α :=
  sortBy (fun a b => decide (count b < count a)) xs

/-- Numbers the elements of a list, starting with the given number. -/
def numbered {α : Type} : Nat → List α → List (Nat × α)
  | _, [] => []
  | n, x :: rest => (n, x) :: numbered (n + 1) rest

namespace Graph

def labelCount {α : Type} [BEq α] (row : Targets α) : Except Fault Nat :=
  row.values.foldlM (fun n l => do return n + (← l.value.length)) 0

def totalLabels {α : Type} [BEq α] (t : Table α (Targets α)) : Except Fault Nat :=
  t.values.foldlM (fun n row => do return n + (← labelCount row)) 0

/-- The sources of a table that make calls, with the number of their calls. -/
def callers {α : Type} [BEq α] (name : α → String) (t : Table α (Targets α)) :
    Except Fault (List (String × Nat)) := do
  let counts ← t.entries.mapM (fun e => do return (name e.1, ← labelCount e.2))
  return counts.filter (fun c => c.2 != 0)

def isEdited (g : Graph) : Bool :=
  !(g.hiddenNodes.isEmpty && g.hiddenEdges.isEmpty && g.customNodes.isEmpty
    && g.customEdges.isEmpty)

def editLines (g : Graph) : List String :=
  if g.isEdited then
    ["", "🎨 Graph Editing:",
     "  Hidden nodes: " ++ Text.ofNat g.hiddenNodes.size,
     "  Hidden edges: " ++ Text.ofNat g.hiddenEdges.size,
     "  Custom colors: " ++ Text.ofNat g.colors.size,
     "  Custom nodes: " ++ Text.ofNat g.customNodes.size,
     "  Custom edges: " ++ Text.ofNat g.customEdgeCount]
  else []

def callerLines (callers : List (String × Nat)) : List String :=
  if callers.isEmpty then []
  else
    ["", "📊 Files making most method calls:"]
      ++ (numbered 1 ((byCount Prod.snd callers).take 5)).map (fun e =>
        "  " ++ Text.ofNat e.1 ++ ". " ++ e.2.1 ++ ": " ++ Text.ofNat e.2.2 ++ " calls")

def summary (g : Graph) : Except Fault (List String) := do
  let calls ← totalLabels g.calls
  let custom ← totalLabels g.customEdges
  let callers₁ ← callers SourcePath.stem g.calls
  let callers₂ ← callers Node.simpleName g.customEdges
  let sizes :=
    ["", doubleRule,
     "🔍 JAVA DEPENDENCY ANALYSIS SUMMARY",
     doubleRule,
     "📁 Source Directory: " ++ g.root.toText,
     "📄 Total files analyzed: " ++ Text.ofNat g.connectedCount,
     "🔗 Total method calls found: " ++ Text.ofNat (calls + custom),
     "🏗️ Total classes found: " ++ Text.ofNat g.classes.size,
     "🆕 Custom nodes: " ++ Text.ofNat g.customNodes.size,
     "🔗 Custom edges: " ++ Text.ofNat g.customEdgeCount]
  return sizes ++ g.editLines ++ callerLines (callers₁ ++ callers₂) ++ [doubleRule]

end Graph

namespace Facts

def serviceLines (f : Facts) : List String :=
  ("🔧 Service-Implementation mappings: " ++ Text.ofNat f.serviceFiles.size)
    :: f.serviceFiles.entries.map (fun e => "  • " ++ e.1 ++ " → " ++ e.2.stem)

def functionLines (file : SourcePath) (functions : Table String NameSet) : List String :=
  ("  • " ++ file.stem ++ ":")
    :: functions.entries.map (fun e =>
      "    - " ++ e.1 ++ ": " ++ Text.ofNat e.2.size ++ " dependencies")

def selectedLines (f : Facts) : List String :=
  let found := f.methodDependencies
  let functions := found.total Table.size
  let dependencies := found.total (Table.total SortedSet.size)
  ("🎯 Method-specific analysis: " ++ Text.ofNat found.size ++ " implementations")
    :: (if found.isEmpty then []
      else
        ["  • Total methods analyzed: " ++ Text.ofNat functions,
         "  • Total dependencies found: " ++ Text.ofNat dependencies]
          ++ found.entries.flatMap (fun e => functionLines e.1 e.2))

def interfaceLines (f : Facts) : List String :=
  if f.implementations.isEmpty then []
  else
    ["", "📊 Most implemented interfaces:"]
      ++ (numbered 1 ((byCount (fun e => e.2.size) f.implementations.entries).take 3)).map (fun e =>
        "  " ++ Text.ofNat e.1 ++ ". " ++ e.2.1 ++ ": " ++ Text.ofNat e.2.2.size
          ++ " implementations (" ++ Text.join ", " e.2.2.toList ++ ")")

def summary (f : Facts) : List String :=
  ["", "🚀 ENHANCED ANALYSIS SUMMARY",
   doubleRule,
   "📋 Interfaces detected: " ++ Text.ofNat f.interfaces.size,
   "🔗 Implementation relationships: " ++ Text.ofNat f.implementationCount,
   "📝 Field dependencies: " ++ Text.ofNat (f.fieldTypes.total Table.size),
   "🔀 Conditional method calls: " ++ Text.ofNat (f.conditionCalls.total Table.size),
   "⛓️ Method chaining detected: " ++ Text.ofNat (f.chainedCalls.total Table.size),
   "💉 Annotation-based dependencies: " ++ Text.ofNat (f.injected.total SortedSet.size)]
    ++ f.serviceLines ++ f.selectedLines ++ f.interfaceLines ++ [doubleRule]

end Facts

end JavaDeps
