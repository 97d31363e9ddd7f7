import JavaDeps.Analysis.Selected
import JavaDeps.Selection.Filter
import JavaDeps.Selection.Labels

/-!
# Selecting page functions

With page functions in a project, a selection also keeps the chosen page functions for the drawing,
and the chosen functions are looked at in the implementations before the graph is restricted.
-/

namespace JavaDeps

def addName (names : List String) (name : String) : List String :=
  if names.contains name then names else names ++ [name]

def plainFunctionName (name : String) : String :=
  Text.lastPart (Text.replace (Text.replace name "()" "") "/" "_") '.'

def pageNumbers : List String → Except Fault (List Int)
  | [] => .ok []
  | id :: rest => do
    let text := Store.plainId id
    match Text.readInt text with
    | .ok n => return n :: (← pageNumbers rest)
    | .error flaw => throw (.notInteger flaw)

/-- The page functions found so far, and the function names they stand for. -/
structure PagesFound where
  functions : List PageFunction := []
  names : List String := []

def findPage (n : Int) : Action (Option PageFunction) := do
  if (← theProject).hasStore then Store.standard.byId (.str (Store.idMark ++ Text.ofInt n))
  else throw (.noMember "NoneType" "get_function_by_id")

/-- Looks up page functions. A function without a text as its name ends the search with a fault;
what was found before it is given as well. -/
def findPages (found : PagesFound) : List Int → Action (PagesFound × Option Fault)
  | [] => pure (found, none)
  | n :: rest => do
    match ← attempt (findPage n) with
    | .error e => return (found, some e)
    | .ok none => findPages found rest
    | .ok (some f) => match f.name.textFor "replace" with
      | .error e => return (found, some e)
      | .ok name =>
        findPages
          { functions := found.functions ++ [f]
            names := addName found.names (plainFunctionName name) } rest

def linkPage (components : Table String Value) (links : PageLinks) (f : PageFunction) :
    Except Fault PageLinks :=
  match components.get? (Store.idMark ++ f.functionId.display) with
  | some component => do
    let key ← f.name.asKey
    return { links with components := links.components.set key component }
  | none => .ok links

def keepPages (functions : List PageFunction) (components : Table String Value)
    (report : PageFunction → Value → Action Unit) : Action Unit := do
  modifyProject (fun p => { p with pages := { functions := functions } })
  functions.forM (fun f => do
    let links ← orFail (linkPage components (← theProject).pages f)
    modifyProject (fun p => { p with pages := links })
    match components.get? (Store.idMark ++ f.functionId.display) with
    | some component => report f component
    | none => return ())

/-- Looks up chosen page functions and keeps them. The function names are given even when the
look-up ends early. -/
def choosePages (ids : List String) : Action (List String × Option Fault) := do
  match pageNumbers ids with
  | .error e => return ([], some e)
  | .ok numbers =>
    let (found, fault?) ← findPages {} numbers
    match fault? with
    | some e => return (found.names, some e)
    | none =>
      match ← attempt (do
          let components ← Store.standard.controllers (Value.ofNames ids)
          keepPages found.functions components (fun _ _ => pure ())) with
      | .ok _ => return (found.names, none)
      | .error e => return (found.names, some e)

/-- The function name that an id of a class or a call is taken for. -/
def namedFunction (id : String) : String := Text.lastPart id '.'

def filterPaged (ids : Value) : Action Unit := do
  let texts ← orFail (idTexts ids)
  let pages := texts.filter (fun id => Text.starts id Choice.pageMark)
  let others := texts.filter (fun id => !Text.starts id Choice.pageMark)
  let mut names := []
  if !pages.isEmpty then
    let (found, fault?) ← choosePages pages
    names := found
    match fault? with
    | some e => say ("❌ Error processing HTML functions in filter: " ++ e.message)
    | none => pure ()
  names := others.foldl (fun names id => addName names (namedFunction id)) names
  if !names.isEmpty then
    say ("🎯 Setting selected functions for implementation analysis: "
      ++ (Value.ofNames names).quoted)
    selectFunctions (Value.ofNames names)
    filterCalls (Value.ofNames names)
  filterGraph ids

def filterProject (ids : Value) : Action Unit := do
  match (← theProject).depth with
  | .paged => filterPaged ids
  | _ => filterGraph ids

/-- Looks up page functions by ids. Ids that cannot be looked up are passed over. -/
def pagesByIds : List Value → Action (List PageFunction)
  | [] => pure []
  | id :: rest => do
    let f? ← Store.standard.byId id
    let others ← pagesByIds rest
    match f? with
    | some f => return f :: others
    | none => return others

/-- Keeps page functions for the drawing, and reports their components. -/
def addPageFunctions (ids : Value) : Action Unit := do
  if (← theProject).hasStore && ids.isTruthy then
    let tried ← attempt do
      let functions ← pagesByIds (← orFail ids.elements)
      let components ← Store.standard.controllers ids
      keepPages functions components (fun f component =>
        say ("📱 " ++ f.name.display ++ " → 🔧 " ++ component.display))
    match tried with
    | .ok _ => return ()
    | .error e => say ("❌ Error adding HTML functions: " ++ e.message)

end JavaDeps
