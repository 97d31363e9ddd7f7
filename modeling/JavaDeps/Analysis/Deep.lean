import JavaDeps.Analysis.Plain
import JavaDeps.Java.Condition
import JavaDeps.Java.Field

/-!
# Deep analysis

The deep analysis adds to the plain one what follows from interfaces, services, declared types,
conditions, chains of calls and injected fields. It reports every phase.
-/

namespace JavaDeps

/-! ## Types of names -/

def Facts.declaredType? (f : Facts) (file : SourcePath) (name : String) : Option String :=
  match f.fieldTypes.get? file with
  | some types => types.get? name
  | none => none

/-- The type of a name in a file: the declared one, or the one of an initialised variable. -/
def typeOf? (f : Facts) (text? : Option (List Char)) (file : SourcePath) (name : String) :
    Option String :=
  match f.declaredType? file name with
  | some type => some type
  | none => match text? with
    | some text => Java.localTypeOf? text name
    | none => none

/-- A value by which a type is looked up has to be able to be a key when the file declares types. -/
def Facts.checkName (f : Facts) (file : SourcePath) (name : Value) : Except Fault Unit :=
  match f.fieldTypes.get? file, name.asKey with
  | some _, .error e => .error e
  | _, _ => .ok ()

/-- The type of what a value names in a file. Only texts are names. -/
def typeNamed (f : Facts) (text? : Option (List Char)) (file : SourcePath) (name : Value) :
    Except Fault (Option String) := do
  f.checkName file name
  match name with
  | .str s => return typeOf? f text? file s
  | _ => return none

/-! ## Findings of one file -/

def usesClassOnce (g : Graph) (file : SourcePath) (className label : String) : List Finding :=
  match g.otherFile? file className with
  | some target => [.usesOnce file target label]
  | none => []

def fieldFindings (g : Graph) (file : SourcePath) (text : List Char) : List Finding :=
  (Java.typedNames text).flatMap (fun d =>
      .types file d.2 d.1 :: usesClassOnce g file d.1 ("field: " ++ d.2))
    ++ (Java.nestedTypes text).flatMap (fun n =>
      usesClassOnce g file n.1 ("nested-type: " ++ n.1 ++ "." ++ n.2))

def conditionUse (g : Graph) (file : SourcePath) (type? : Option String) (label : String) :
    List Finding :=
  match type? with
  | some type => match g.otherFile? file type with
    | some target => [.conditionUses file target label, .usesOnce file target label]
    | none => []
  | none => []

/-- The uses in conditions: calls, constants and switched variables. -/
def conditionFindings (g : Graph) (f : Facts) (file : SourcePath) (text : List Char) :
    List Finding :=
  let cleaned := Java.clean text
  let type? := typeOf? f (some text) file
  (Java.conditionCalls cleaned).flatMap (fun c =>
      conditionUse g file (type? c.1) ("if-condition: " ++ c.1 ++ "." ++ c.2 ++ "()"))
    ++ (Java.comparedConstants cleaned).flatMap (fun c =>
      conditionUse g file (some c.1) ("enum-access: " ++ c.1 ++ "." ++ c.2))
    ++ (Java.switchedVariables cleaned).flatMap (fun v =>
      conditionUse g file (type? v) ("switch(" ++ v ++ ")"))

def chainUse (g : Graph) (file : SourcePath) (type? : Option String) (label : String) :
    List Finding :=
  match type? with
  | some type => match g.otherFile? file type with
    | some target => [.chainUses file target label, .usesOnce file target label]
    | none => []
  | none => []

def chainFindings (g : Graph) (f : Facts) (file : SourcePath) (text : List Char) : List Finding :=
  let cleaned := Java.clean text
  let type? := typeOf? f (some text) file
  (Java.chainedCalls cleaned).flatMap (fun c =>
      chainUse g file (type? c.1) ("chain: " ++ c.2 ++ "()..."))
    ++ (Java.streamedVariables cleaned).flatMap (fun v =>
      chainUse g file (type? v) ("stream-ops: " ++ v))

/-- The injected fields, with the classes that implement their types. -/
def injectionFindings (g : Graph) (f : Facts) (file : SourcePath) (text : List Char) :
    List Finding :=
  (Java.injectedFields text).flatMap fun d =>
    let implementing := (f.implementations.getD d.1 SortedSet.empty).toList
    .injects file d.1 :: usesClassOnce g file d.1 ("@Autowired: " ++ d.2)
      ++ implementing.flatMap (fun c =>
        usesClassOnce g file c ("@Autowired: " ++ d.2 ++ " → " ++ c))

/-! ## Phases -/

def enterInterfaces (file : SourcePath) : Action Unit := do
  match ← sourceText? file with
  | some text => (Java.declaredInterfaces text).forM (fun name => do
      enter [.declaresInterface file name]
      say ("📋 Found interface: " ++ name))
  | none => return ()

def enterImplementation (file : SourcePath) (className interface : String) : Action Unit := do
  match (← theProject).facts.interfaces.get? interface with
  | some interfaceFile =>
    enter [.implements interface className]
    say ("🔗 " ++ className ++ " implements " ++ interface)
    if file != interfaceFile then enter [.uses file interfaceFile ("implements " ++ interface)]
  | none => return ()

def enterImplementations (file : SourcePath) : Action Unit := do
  match ← sourceText? file with
  | some text => (Java.implementsClauses text).forM (fun c =>
      c.2.forM (fun interface => enterImplementation file c.1 interface))
  | none => return ()

def enterService (service implementation : String) (file : SourcePath) : Action Unit := do
  enter [.servesIn service implementation file]
  say ("🔗 Service mapping: " ++ service ++ " -> " ++ implementation)

/-- Pairs a service with its implementation by the names of their files. -/
def pairService (files : List SourcePath) (file : SourcePath) : Action Unit := do
  match ← sourceText? file with
  | none => return ()
  | some text =>
    let holds (word : String) : Bool := Text.occursIn word.toList text
    let name := file.stem
    if Text.ends name "Service" && holds "interface" then
      match files.find? (fun f => f.stem == name ++ "Impl") with
      | some implFile =>
        enterService name (name ++ "Impl") implFile
        enter [.uses file implFile "implemented_by"]
      | none => return ()
    else if Text.ends name "ServiceImpl" && holds "implements" then
      let service := Text.replace name "Impl" ""
      if holds "interface" && files.any (fun f => f.stem == service) then
        enterService service name file

/-- The number of targets that a file has in a table of labels. -/
def targetCount (t : Table SourcePath (Table SourcePath (List String))) (file : SourcePath) : Nat :=
  (t.getD file Table.empty).size

/-- Enters what the text of a file gives beyond the plain analysis, and reports the counts. -/
def enterDetails (file : SourcePath) : Action Unit := do
  match ← sourceText? file with
  | none => return ()
  | some text =>
    let count (label : String) (n : Nat) : Action Unit :=
      say (label ++ " in " ++ file.stem ++ ": " ++ Text.ofNat n)
    let p ← theProject
    enter (fieldFindings p.graph file text ++ [.listsTypes file])
    count "📝 Fields" (((← theProject).facts.fieldTypes.getD file Table.empty).size)
    let p ← theProject
    enter (conditionFindings p.graph p.facts file text ++ [.listsConditions file])
    count "🔀 Conditional calls" (targetCount (← theProject).facts.conditionCalls file)
    let p ← theProject
    enter (chainFindings p.graph p.facts file text ++ [.listsChains file])
    count "⛓️ Method chains" (targetCount (← theProject).facts.chainedCalls file)
    let p ← theProject
    enter (injectionFindings p.graph p.facts file text ++ [.listsInjected file])
    let injected := (← theProject).facts.injected.getD file SortedSet.empty
    count "💉 Autowired dependencies" injected.size

/-- The links in both directions between an interface and a class that implements it. -/
def linkFindings (g : Graph) (interface : String) (file : SourcePath) (className : String) :
    List Finding :=
  match g.classes.get? className with
  | some classFile =>
    [.usesOnce file classFile ("implemented-by: " ++ className),
     .usesOnce classFile file ("implements: " ++ interface)]
  | none => []

/-- The links between all interfaces and the classes that implement them. -/
def crossFindings (g : Graph) (f : Facts) : List Finding :=
  f.implementations.entries.flatMap fun e =>
    match f.interfaces.get? e.1 with
    | some file => e.2.toList.flatMap (linkFindings g e.1 file)
    | none => []

/-- Links interfaces and implementations, and reports the counts. -/
def crossReference : Action Unit := do
  say "🔗 Performing cross-reference analysis..."
  let p ← theProject
  enter (crossFindings p.graph p.facts)
  let f := (← theProject).facts
  say "✅ Cross-reference analysis completed"
  say ("📋 Interfaces found: " ++ Text.ofNat f.interfaces.size)
  say ("🔗 Implementation relationships: " ++ Text.ofNat f.implementationCount)

def analyzeDeep : Action Unit := do
  say "🔍 Phase 1: Basic class extraction..."
  analyzePlain
  let files ← projectFiles
  say "🔍 Phase 2: Interface-Implementation detection..."
  files.forM enterInterfaces
  files.forM enterImplementations
  say "🔍 Phase 3: Service-Implementation mapping..."
  files.forM (pairService files)
  say "🔍 Phase 4: Enhanced dependency analysis..."
  files.forM enterDetails
  say "🔍 Phase 5: Cross-reference analysis..."
  crossReference

def analyze : Action Unit := do
  match (← theProject).depth with
  | .plain => analyzePlain
  | _ => analyzeDeep

end JavaDeps
