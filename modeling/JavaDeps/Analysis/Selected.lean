import JavaDeps.Analysis.Deep
import JavaDeps.Java.Method

/-!
# A closer look at selected functions

For functions that are selected by name, the files that implement a service are searched for a
method of that name, and its dependencies are kept.
-/

namespace JavaDeps

def Java.MethodError.toFault : Java.MethodError → Fault
  | .pattern e => .badPattern e
  | .noBody => .noText (Value.kind .null)

/-- The type of a field of a file: the declared one, or the one found in its text. -/
def fieldTypeIn? (f : Facts) (text? : Option (List Char)) (file : SourcePath) (name : String) :
    Option String :=
  match f.declaredType? file name with
  | some type => some type
  | none => match text? with
    | some text => Java.fieldTypeOf? text name
    | none => none

/-- The type of the field that a value names in a file. A value that is no text stands for the text
that is shown for it. -/
def fieldTypeNamed (f : Facts) (text? : Option (List Char)) (file : SourcePath) (name : Value) :
    Except Fault (Option String) := do
  f.checkName file name
  match name with
  | .str s => return fieldTypeIn? f text? file s
  | v => return text?.bind (fun text => Java.fieldTypeOf? text v.display)

/-- The text of a value, once a written pattern with which it is to be searched was read. -/
def searchedText (switches : Pattern.Switches) (written : String) (v : Value) :
    Except Fault (List Char) :=
  match Pattern.parse switches written, v with
  | .error e, _ => .error (.badPattern e)
  | .ok _, .str s => .ok s.toList
  | .ok _, v => .error (.noText v.kind)

/-- The type of the variable that a value names in a method body. -/
def variableTypeNamed (body name : Value) : Except Fault (Option String) := do
  let text ← searchedText [] (Java.writtenVariable name.display) body
  match Java.variableType text name.display with
  | .ok type? => return type?
  | .error e => throw (.badPattern e)

/-- The dependencies of a method in a text, where the fields are those of a file. -/
def dependenciesOf (text : List Char) (name : String) (file : SourcePath) : Action NameSet := do
  let f := (← theProject).facts
  let fileText? ← sourceText? file
  match Java.methodDependencies (fieldTypeIn? f fileText? file) text name with
  | .ok deps => return deps
  | .error e => throw e.toFault

/-- The dependencies of the method that a value names in a text. -/
def dependenciesNamed (text name : Value) (file : SourcePath) : Action NameSet := do
  let text ← orFail (searchedText [.dotAll] (Java.writtenMethod name.display) text)
  dependenciesOf text name.display file

def Facts.keepDependencies (f : Facts) (file : SourcePath) (name : String) (deps : NameSet) :
    Facts :=
  { f with
    methodDependencies := f.methodDependencies.alter file Table.empty (fun t => t.set name deps) }

/-- Looks for a method in a file, and keeps and reports its dependencies. -/
def lookAtMethod (file : SourcePath) (text : List Char) (name : String) : Action Unit := do
  let deps ← dependenciesOf text name file
  if !deps.isEmpty then
    modifyProject (fun p => { p with facts := p.facts.keepDependencies file name deps })
    say ("  📝 " ++ name ++ ": found " ++ Text.ofNat deps.size ++ " dependencies")
    sayAll (deps.toList.map ("    → " ++ ·))

/-- Looks for the selected functions in the files that implement a service. -/
def lookAtSelected : Action Unit := do
  let f := (← theProject).facts
  f.serviceFiles.values.forM (fun file => do
    match ← sourceText? file with
    | none => return ()
    | some text =>
      say ("🔍 Analyzing methods in " ++ file.stem ++ "...")
      f.selected.toList.forM (fun name => lookAtMethod file text name.display))

def keySet (v : Value) : Except Fault (SortedSet Atom) := do
  let items ← v.elements
  let keys ← items.mapM Value.asKey
  return SortedSet.ofList keys

def selectFunctions (names : Value) : Action Unit := do
  let selected ← orFail (keySet names)
  modifyProject (fun p => { p with facts := { p.facts with selected := selected } })
  let texts ← orFail names.texts
  say ("🎯 Selected functions for detailed analysis: " ++ Text.join ", " texts)
  lookAtSelected

end JavaDeps
