import JavaDeps.Text.Lower
import JavaDeps.Session

/-!
# Selecting labels

The calls are reduced to the labels that mention a function by name. Labels that show how classes
are built stay in any case.

The file defines:
- `keepsLabel`, which labels stay;
- `Graph.filterLabels`, the reduced calls, and `filterCalls`, which reduces those of the session.
-/

namespace JavaDeps

def isStructural (label : String) : Bool :=
  Text.starts label "field:" || Text.starts label "implements" || Text.starts label "@Autowired"
    || Text.starts label "success" || Text.within "dependency" (Text.lower label)

def mentions (label name : String) : Bool := Text.within (Text.lower name) (Text.lower label)

def keepsLabel (names : List String) (label : String) : Bool :=
  names.any (mentions label) || isStructural label

namespace Graph

/-- The labels that stay, all of which have to be texts. -/
def labelsKept (names : List String) (labels : Value) : Except Fault (List String) := do
  let texts ← (← labels.elements).mapM (Value.textFor "lower")
  return texts.filter (keepsLabel names)

/-- Goes on with one edge. Edges that keep no label are left out. -/
def filterEdge (names : List String) (source : SourcePath)
    (kept : Table SourcePath (Targets SourcePath)) (e : SourcePath × Labels) :
    Except Fault (Table SourcePath (Targets SourcePath)) := do
  let labels ← labelsKept names e.2.value
  if labels.isEmpty then return kept
  else return kept.alter source Table.empty (fun t => t.set e.1 (Labels.ofNames labels))

def filterLabels (names : List String) (calls : Table SourcePath (Targets SourcePath)) :
    Except Fault (Table SourcePath (Targets SourcePath)) :=
  calls.entries.foldlM
    (fun kept e => e.2.entries.foldlM (filterEdge names e.1) kept) Table.empty

def callCount (g : Graph) : Nat := g.calls.total Table.size

end Graph

/-- Reduces the calls of the session to those that mention a name. Without names nothing is
reduced. -/
def filterCalls (names : Value) : Action Unit := do
  if names.isTruthy then
    let texts ← orFail names.texts
    say ("🔍 Filtering method calls to show only: " ++ Text.join ", " texts)
    let calls ← orFail (Graph.filterLabels texts (← theGraph).calls)
    modifyGraph (fun g => { g with calls := calls })
    say ("✅ Filtered method calls: " ++ Text.ofNat (← theGraph).callCount ++ " connections")

end JavaDeps
