import JavaDeps.Java.Call
import JavaDeps.Java.Clean
import JavaDeps.Java.Declaration
import JavaDeps.Session

/-!
# Plain analysis

The plain analysis goes through the Java files twice: first it enters the classes that they
declare, then their imports and the calls that lead to a class of another file.
-/

namespace JavaDeps

/-- The classes that a file declares, under their simple and their qualified names. -/
def declarationFindings (file : SourcePath) (text : List Char) : List Finding :=
  let package := (Java.packageName? text).getD ""
  (Java.declaredTypes text).map fun name =>
    .declares file name (if package.isEmpty then name else package ++ "." ++ name)

def usesClass (g : Graph) (file : SourcePath) (className label : String) : Option Finding :=
  (g.otherFile? file className).map (fun target => .uses file target label)

/-- The imports of a file and its uses of classes of other files: method calls, calls on service
variables, and creations. -/
def callFindings (g : Graph) (file : SourcePath) (text : List Char) : List Finding :=
  let cleaned := Java.clean text
  (Java.importedNames text).map (Finding.imports file)
    ++ (Java.memberCalls cleaned).filterMap (fun c => usesClass g file c.1 c.2)
    ++ (Java.serviceCalls cleaned).filterMap (fun c => usesClass g file (Java.serviceType c.1) c.2)
    ++ (Java.creations cleaned).filterMap (fun c => usesClass g file c ("new " ++ c ++ "()"))

/-- Enters what a file gives; a file that cannot be read gives nothing. -/
def enterFile (file : SourcePath) (findings : List Char → List Finding) : Action Unit := do
  match ← sourceText? file with
  | some text => enter (findings text)
  | none => return ()

def analyzePlain : Action Unit := do
  let files ← projectFiles
  files.forM (fun file => enterFile file (declarationFindings file))
  files.forM (fun file => do
    let g ← theGraph
    enterFile file (callFindings g file))

end JavaDeps
