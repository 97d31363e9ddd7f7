import JavaDeps.Disk
import JavaDeps.Graph.Finding
import JavaDeps.Pages.FunctionTable

/-!
# Sessions

A session is a project together with all that its operations read and change: the files, the table
of page functions, the drawing tool and the ports. Operations report what they do line by line.
-/

namespace JavaDeps

/-- What the drawing tool is started for: to tell its version, or to make the image or the map of a
drawing and write it to a path. -/
inductive ToolTask where
  | version
  | image (drawing path : String)
  | map (drawing path : String)

/-- The drawing tool. A run has an exit code and a text of errors, or fails with a fault; in either
case it may have changed the files. -/
structure Tool where
  run : ToolTask → Disk → Except Fault (Int × String) × Disk

def Tool.missing : Tool := ⟨fun _ d => (.error (.noFile "dot"), d)⟩

/-- What an attempt to listen on a port comes to. -/
inductive Binding where
  /-- Something listens, on this port. -/
  | listens (port : Int)
  /-- The port is taken or may not be used. -/
  | refused
  /-- The attempt fails in another way. -/
  | fails (e : Fault)
  deriving DecidableEq, Repr

/-- A project with what its operations read and change. -/
structure Session where
  project : Project
  disk : Disk
  /-- The table of page functions; none when it cannot be reached. -/
  store : Option FunctionTable
  tool : Tool
  ports : Int → Binding
  /-- Where relative paths start. -/
  workingDirectory : String
  /-- Where the program and its templates are. -/
  programDirectory : SourcePath
  /-- The lines reported so far. -/
  log : List String
  /-- The pages opened so far. -/
  opened : List String

/-- An operation on a session. One that fails keeps what it did before. -/
abbrev Action := ExceptT Fault (StateM Session)

namespace Session

def report (s : Session) (text : String) : Session :=
  { s with log := s.log ++ Text.split text '\n' }

end Session

def say (text : String) : Action Unit := modify (fun s => s.report text)

def sayAll (texts : List String) : Action Unit := texts.forM say

/-- Runs an operation and gives its failure as an answer. What it did before failing stays. -/
def attempt {α : Type} (act : Action α) : Action (Except Fault α) := fun s =>
  match act.run s with
  | (r, s) => (.ok r, s)

def orFail {α : Type} (r : Except Fault α) : Action α := match r with
  | .ok a => pure a
  | .error e => throw e

def theProject : Action Project := do return (← get).project

def theGraph : Action Graph := do return (← get).project.graph

def modifyProject (f : Project → Project) : Action Unit :=
  modify (fun s => { s with project := f s.project })

def modifyGraph (f : Graph → Graph) : Action Unit :=
  modifyProject (fun p => { p with graph := f p.graph })

/-- Runs a change of the graph that keeps what it did before failing. -/
def onGraph {α : Type} (f : Graph → Except Fault α × Graph) : Action α := fun s =>
  match f s.project.graph with
  | (r, g) => (r, { s with project := { s.project with graph := g } })

def enter (findings : List Finding) : Action Unit := fun s =>
  match s.project.enterAll findings with
  | (r, p) => (r, { s with project := p })

def projectFiles : Action (List SourcePath) := do
  let s ← get
  return s.disk.javaFiles s.project.graph.root

def sourceText? (file : SourcePath) : Action (Option (List Char)) := do
  return (← get).disk.text? file

def writeFile (path : String) (c : Content) : Action Unit := do
  let d ← orFail ((← get).disk.write path c)
  modify (fun s => { s with disk := d })

def runTool (task : ToolTask) : Action (Int × String) := fun s =>
  match s.tool.run task s.disk with
  | (r, d) => (r, { s with disk := d })

end JavaDeps
