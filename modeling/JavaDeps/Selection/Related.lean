import JavaDeps.Session

/-!
# Related classes

A class is selected together with the classes it imports, those whose files it calls, and the
services, repositories and controllers that call its file.
-/

namespace JavaDeps

/-- A class that is selected beside another one, and why. -/
structure Related where
  reason : String
  name : String
  deriving DecidableEq, Repr

namespace Graph

def importedClasses (g : Graph) (file : SourcePath) : List String :=
  (g.imports.getD file SortedSet.empty).toList.filter g.classes.contains

def calledClasses (g : Graph) (file : SourcePath) : List String :=
  (g.calls.getD file Table.empty).keys.flatMap (fun target => (g.classesOf target).toList)

/-- Whether a class is a service, a repository or a controller, by its name. -/
def isComponent (name : String) : Bool :=
  Text.ends name "Service" || Text.ends name "Repository" || Text.ends name "Controller"

def callingComponents (g : Graph) (file : SourcePath) : List String :=
  g.calls.entries.flatMap (fun e =>
    if e.2.contains file then (g.classesOf e.1).toList.filter isComponent else [])

def relatedClasses (g : Graph) (className : String) : List Related :=
  match g.classes.get? className with
  | none => []
  | some file =>
    (g.importedClasses file).map (Related.mk "dependency")
      ++ (g.calledClasses file).map (Related.mk "method dependency")
      ++ (g.callingComponents file).map (Related.mk "reverse dependency")

end Graph

def Related.line (r : Related) : String := "      ➕ Added " ++ r.reason ++ ": " ++ r.name

/-- Adds the related classes of a class to a selection, and reports them. -/
def addRelated (className : String) (selected : NameSet) : Action NameSet := do
  let related := (← theGraph).relatedClasses className
  sayAll (related.map Related.line)
  return selected.insertAll (related.map Related.name)

/-- Adds the related classes of a class, given by any value, to a set of values. -/
def addRelatedTo (className : Value) (selected : SortedSet Atom) : Action (SortedSet Atom) := do
  match className.asKey with
  | .ok (.str name) =>
    let related := (← theGraph).relatedClasses name
    sayAll (related.map Related.line)
    return selected.insertAll (related.map (fun r => .str r.name))
  | .ok _ => return selected
  | .error e =>
    say ("      ❌ Error adding dependencies for " ++ className.display ++ ": " ++ e.message)
    return selected

end JavaDeps
