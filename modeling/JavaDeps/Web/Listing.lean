import JavaDeps.Pages.Store
import JavaDeps.Selection.Restrict

/-!
# The list of functions

The functions that can be selected: page functions, classes and calls. Every entry has an id, by
which it is selected.

The file defines:
- `ServerKind`, with or without page functions;
- `ListEntry`, an entry that is not a page function;
- `Graph.classEntries`, `Graph.serviceEntries` and `Graph.callEntries`;
- `fullList` and `plainList`, the lists with and without page functions, and `functionList`.
-/

namespace JavaDeps

/-- Whether a server offers page functions. -/
inductive ServerKind where
  | withPages
  | withoutPages
  deriving DecidableEq, Repr

def ServerKind.callLimit : ServerKind → Nat
  | .withPages => 100
  | .withoutPages => 50

/-- An entry of the list. -/
structure ListEntry where
  id : String
  name : Value
  type : String
  file : String
  dependencies : Nat

def ListEntry.toValue (e : ListEntry) : Value :=
  .obj
    [("id", .str e.id), ("name", e.name), ("type", .str e.type), ("file", .str e.file),
     ("dependencies", .int e.dependencies)]

def ServerKind.classType (kind : ServerKind) (name : String) : String :=
  match kind with
  | .withPages => if Text.ends name "Service" then "service" else "class"
  | .withoutPages => "class"

namespace Graph

/-- The entry of a class, with a mark before its name as the id. -/
def declaredEntry (g : Graph) (mark type name : String) (file : SourcePath) :
    Except Fault ListEntry := do
  let path ← g.relativePath file
  return {
    id := mark ++ name
    name := .str name
    type := type
    file := path
    dependencies := (g.imports.getD file SortedSet.empty).size }

def classEntry (g : Graph) (kind : ServerKind) (name : String) (file : SourcePath) :
    Except Fault ListEntry :=
  g.declaredEntry "class_" (kind.classType name) name file

def classEntries (g : Graph) (kind : ServerKind) : Except Fault (List ListEntry) :=
  g.classes.entries.mapM (fun e => g.classEntry kind e.1 e.2)

/-- The entry of a class as a service, if it is one by its name and is not listed as a class. -/
def serviceItem? (g : Graph) (listed : List ListEntry) (name : String) (file : SourcePath) :
    Except Fault (Option ListEntry) :=
  if Text.ends name "Service" then do
    let entry ← g.declaredEntry "service_" "service" name file
    return if listed.any (fun e => e.id == "class_" ++ name) then none else some entry
  else .ok none

def serviceEntries (g : Graph) (listed : List ListEntry) : Except Fault (List ListEntry) := do
  let found ← g.classes.entries.mapM (fun e => g.serviceItem? listed e.1 e.2)
  return found.filterMap id

def callEntry (g : Graph) (source target : SourcePath) (label : Value) :
    Except Fault ListEntry := do
  let sourcePath ← g.relativePath source
  let targetPath ← g.relativePath target
  return {
    id := "method_" ++ label.display ++ "_" ++ sourcePath ++ "_" ++ targetPath
    name := label
    type := "method"
    file := sourcePath ++ " → " ++ targetPath
    dependencies := 1 }

def visitCalls (g : Graph) (limit : Nat) (source : SourcePath) (found : List ListEntry)
    (e : SourcePath × Labels) : Except Fault (List ListEntry) := do
  let labels ← e.2.value.elements
  let more ← (labels.take (limit - found.length)).mapM (g.callEntry source e.1)
  return found ++ more

/-- The entries of the first calls. Files after the one that reaches the limit are not looked at. -/
def callEntries (g : Graph) (limit : Nat) : Except Fault (List ListEntry) :=
  g.calls.entries.foldlM
    (fun found e =>
      if limit ≤ found.length then .ok found
      else e.2.entries.foldlM (g.visitCalls limit e.1) found) []

end Graph

/-- Entries with different ids: of those with one id, the first. -/
def distinctEntries (entries : List (String × Value)) : List (String × Value) :=
  (entries.foldl (fun (t : Table String Value) e => t.ensure e.1 e.2) Table.empty).entries

def keyedRecords (entries : List ListEntry) : List (String × Value) :=
  entries.map (fun e => (e.id, e.toValue))

/-- The page functions for the list. What goes wrong is reported. -/
def listedPages : Action (List (String × Value)) := do
  if (← theProject).hasStore then
    let found ← Store.standard.all
    say ("✅ Loaded " ++ Text.ofNat found.length ++ " HTML functions from database")
    return found.map (fun f => (f.id, f.toValue))
  else
    say ("❌ Error loading HTML functions: "
      ++ (Fault.noMember "NoneType" "get_all_functions").message)
    return []

/-- The list with page functions, in which a class is listed as a service by its name. -/
def fullList : Action (List Value) := do
  let pages ← listedPages
  let g ← theGraph
  let classes ← orFail (g.classEntries .withPages)
  let calls ← orFail (g.callEntries ServerKind.withPages.callLimit)
  return (distinctEntries (pages ++ keyedRecords (classes ++ calls))).map Prod.snd

/-- The list without page functions, in which services follow in a pass of their own. -/
def plainList : Action (List Value) := do
  let g ← theGraph
  let classes ← orFail (g.classEntries .withoutPages)
  let services ← orFail (g.serviceEntries classes)
  let calls ← orFail (g.callEntries ServerKind.withoutPages.callLimit)
  return (distinctEntries (keyedRecords (classes ++ services ++ calls))).map Prod.snd

def functionList : ServerKind → Action (List Value)
  | .withPages => fullList
  | .withoutPages => plainList

end JavaDeps
