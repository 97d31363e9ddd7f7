import JavaDeps.Text.Lower
import JavaDeps.Pages.Store
import JavaDeps.Selection.Choice
import JavaDeps.Selection.Related
import JavaDeps.Selection.Restrict

/-!
# Selecting classes and calls

A selection restricts the graph to chosen classes and calls. When only page functions are chosen,
the classes that belong to them are looked up.
-/

namespace JavaDeps

/-- The first class whose name holds the name of a component or is held by it. -/
def relatedClass? (component : Value) : List String → Except Fault (Option String)
  | [] => .ok none
  | name :: rest => do
    let component' ← component.textFor "lower"
    let short := Text.lower component'
    let long := Text.lower name
    if Text.within short long || Text.within long short then return some name
    else relatedClass? component rest

/-- The class name that a component is, when the project declares it. -/
def declaredComponent? (g : Graph) (component : Value) : Except Fault (Option String) := do
  match ← component.asKey with
  | .str name => return if g.classes.contains name then some name else none
  | _ => return none

/-- Adds the class of a component with its related classes. A component that is no class stands for
the first class with a similar name. -/
def addComponent (selected : NameSet) (component : Value) : Action NameSet := do
  let g ← theGraph
  match ← orFail (declaredComponent? g component) with
  | some name => addRelated name (selected.insert name)
  | none => match ← orFail (relatedClass? component g.classes.keys) with
    | some name =>
      say ("      ✅ Found related: " ++ name)
      addRelated name (selected.insert name)
    | none =>
      say ("      ❌ No related class found for " ++ component.display)
      return selected

def addPage (selected : NameSet) (id : String) (component : Value) : Action NameSet := do
  let name := match ← Store.standard.byId (.str id) with
    | some f => f.name.display
    | none => id
  say ("   � " ++ name ++ " → 🔧 " ++ component.display)
  addComponent selected component

def sayPageFault (e : Fault) : Action Unit :=
  say ("❌ Error processing HTML functions: " ++ e.message)

/-- Adds the classes that page functions call. A failure is reported and ends the search; what was
added before it stays. -/
def addPages (selected : NameSet) : List (String × Value) → Action NameSet
  | [] => pure selected
  | (id, component) :: rest => do
    match ← attempt (addPage selected id component) with
    | .ok selected => addPages selected rest
    | .error e =>
      sayPageFault e
      return selected

/-- Adds the controllers of page functions that the project declares. A failure is reported and ends
the search; what was added before it stays. -/
def addControllers (g : Graph) (selected : NameSet) : List (String × Value) → Action NameSet
  | [] => pure selected
  | (id, controller) :: rest =>
    match declaredComponent? g controller with
    | .ok (some name) => do
      say ("   " ++ id ++ " → " ++ name)
      addControllers g (selected.insert name) rest
    | .ok none => do
      say ("   ⚠️ Controller " ++ controller.display ++ " not found in Java classes")
      addControllers g selected rest
    | .error e => do
      sayPageFault e
      return selected

/-- The chosen classes, with those that the chosen page functions lead to. -/
def chosenClasses (c : Choice) : Action NameSet := do
  let p ← theProject
  if c.pages.isEmpty || !p.hasStore then return c.classes
  if c.classes.isEmpty && c.calls.isEmpty then
    say "🎯 HTML-only mode: Auto-mapping to Java components"
    let found ← Store.standard.controllers (Value.ofNames c.pages)
    say "🔗 HTML→Java auto-mapping:"
    addPages c.classes found.entries
  else
    let found ← Store.standard.controllers (Value.ofNames c.pages)
    say ("🔗 HTML→Java mappings: " ++ (Value.obj found.entries).quoted)
    addControllers p.graph c.classes found.entries

/-- Whether so many classes are chosen that the whole graph is kept: four fifths or more. -/
def keepsAll (chosen total : Nat) : Bool := decide (4 * total ≤ 5 * chosen)

/-- Restricts the graph to a selection. Without ids nothing changes; when most classes are chosen,
only what was hidden is shown again. -/
def filterGraph (ids : Value) : Action Unit := do
  if !ids.isTruthy then
    say "⚠️ No functions selected, keeping all data"
    return ()
  let count ← orFail ids.length
  say ("🔍 Processing " ++ Text.ofNat count ++ " selected functions...")
  let c := Choice.ofIds (← orFail (idTexts ids))
  let classes ← chosenClasses c
  say ("📊 Final selection: " ++ Text.ofNat classes.size ++ " classes, " ++ Text.ofNat c.calls.size
    ++ " methods, " ++ Text.ofNat c.pages.length ++ " HTML functions")
  let g ← theGraph
  if keepsAll classes.size g.classes.size then
    say "🎯 Selected most/all classes, keeping full graph with minimal filtering"
    modifyGraph Graph.showAll
    say ("✅ Keeping full graph: " ++ Text.ofNat g.classes.size ++ " classes and "
      ++ Text.ofNat g.calls.size ++ " file dependencies")
  else
    let g ← orFail (g.restrict classes c.calls)
    modifyGraph (fun _ => g)
    say ("✅ Filtered to " ++ Text.ofNat g.classes.size ++ " classes and "
      ++ Text.ofNat g.calls.size ++ " file dependencies")

end JavaDeps
