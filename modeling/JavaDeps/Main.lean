import JavaDeps.Cli.Run

/-!
# The program

The outer layer of the command line: it reads the directory that is named and the page template,
carries out the command line, prints its report and writes the files that the run made.

The executable starts no other program, opens no connection and listens on no port, so for a run the
drawing tool is missing, the table of page functions is out of reach and every port is refused.
-/

namespace JavaDeps.Main

partial def load (d : Disk) (text : String) : IO Disk := do
  let here ← IO.currentDir
  let path := here / text
  let key := (SourcePath.ofText text).resolve
  if ← path.isDir then
    let d : Disk := ⟨d.entries.set key .directory⟩
    (← path.readDir).foldlM (fun d e => load d (text ++ "/" ++ e.fileName)) d
  else if ← path.pathExists then
    let bytes ← IO.FS.readBinFile path
    return ⟨d.entries.set key (.bytes (bytes.toList.map UInt8.toNat))⟩
  else return d

def save (p : SourcePath) : Content → IO Unit
  | .text s => IO.FS.writeFile p.toText s
  | .bytes bs => IO.FS.writeBinFile p.toText (ByteArray.mk (bs.map Nat.toUInt8).toArray)
  | .directory => IO.FS.createDirAll p.toText

def sessionIn (here program : String) : Session :=
  { project := { depth := .paged, hasStore := false, graph := Graph.ofRoot (SourcePath.ofText "") },
    disk := default, store := none, tool := .missing, ports := fun _ => .refused,
    workingDirectory := here, programDirectory := SourcePath.ofText program, log := [],
    opened := [] }

def programNamed (name : String) : Cli.Program :=
  if name.startsWith "enhanced" then .detailed else .usual

def sourceOf (p : Cli.Program) (words : List String) : Option String :=
  match Cli.Options.parse p.drawing words with
  | .run o => some o.source
  | _ => none

def run (words : List String) : IO UInt32 := do
  let app ← IO.appPath
  let program := programNamed (app.fileStem.getD "")
  let start := sessionIn (← IO.currentDir).toString ((app.parent.map (·.toString)).getD ".")
  let before ← load default start.template.toText
  let before ← match sourceOf program words with
    | some source => load before source
    | none => pure before
  let (answer, after) := (Cli.run program words).run { start with disk := before }
  after.log.forM (fun line => IO.println line)
  after.disk.entries.entries.forM fun (path, content) =>
    if before.entries.get? path == some content then pure () else save path content
  match answer with
  | .ok 2 =>
    program.usage.forM (fun line => IO.eprintln line)
    return 2
  | .ok code => return code.toUInt32
  | .error e =>
    IO.eprintln e.message
    return 1

end JavaDeps.Main

def main (words : List String) : IO UInt32 := JavaDeps.Main.run words
