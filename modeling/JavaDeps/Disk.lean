import JavaDeps.Fault
import JavaDeps.SourcePath
import JavaDeps.Table

/-!
# Files

The files that an analysis reads and that drawing writes. A written path is followed name by name:
what comes before a further name has to be a directory, also before a name of one or two dots.
-/

namespace JavaDeps

/-- What a path holds. -/
inductive Content where
  | text (s : String)
  | bytes (bs : List Nat)
  | directory
  deriving DecidableEq, Repr

/-- The files and directories, in listing order. -/
structure Disk where
  entries : Table SourcePath Content
  deriving DecidableEq

namespace Disk

instance : Inhabited Disk := ⟨⟨Table.empty⟩⟩

/-- Whether a directory is at a place. The current directory and those above it always are. -/
def holdsDirectory (d : Disk) (p : SourcePath) : Bool :=
  p.parts.all (· == "..") || d.entries.get? p == some .directory

/-! ## Following written paths -/

def nameLimit : Nat := 255

def pathLimit : Nat := 4095

def above (root : String) : List String → List String
  | [] => if root.isEmpty then [".."] else []
  | name :: rest => if name == ".." then ".." :: name :: rest else rest

/-- Follows names from a place whose own names are given in reverse. The written path is given for
the faults. -/
def follow (d : Disk) (path root : String) : List String → List String → Except Fault SourcePath
  | place, [] => .ok ⟨root, place.reverse⟩
  | place, name :: rest =>
    let here : SourcePath := ⟨root, place.reverse⟩
    if !d.holdsDirectory here then
      .error (if (d.entries.get? here).isSome then .notDirectory path else .noFile path)
    else if name == "." then follow d path root place rest
    else if name == ".." then follow d path root (above root place) rest
    else if nameLimit < name.utf8ByteSize then .error (.longName path)
    else follow d path root (name :: place) rest

/-- Where a written path leads. Its last name need not exist. -/
def locate (d : Disk) (path : String) : Except Fault SourcePath :=
  if path.toList.contains (Char.ofNat 0) then .error .zeroByte
  else if path.isEmpty then .error (.noFile path)
  else if pathLimit < path.utf8ByteSize then .error (.longName path)
  else
    let root := SourcePath.rootMark path.toList
    d.follow path root [] ((Text.split path '/').filter (· != ""))

/-- What a written path holds. A path that ends with a slash is that of a directory. -/
def find (d : Disk) (path : String) : Except Fault Content := do
  let p ← d.locate path
  if d.holdsDirectory p then return .directory
  else match d.entries.get? p with
    | none => throw (.noFile path)
    | some c => if Text.ends path "/" then throw (.notDirectory path) else return c

def holds (d : Disk) (path : String) : Bool := (d.find path).isOk

/-- Whether there is something at a path. A name that is too long is a fault. -/
def exists? (d : Disk) (p : SourcePath) : Except Fault Bool :=
  match d.find p.toText with
  | .ok _ => .ok true
  | .error (.longName path) => .error (.longName path)
  | .error _ => .ok false

def readText (d : Disk) (p : SourcePath) : Except Fault (List Char) := do
  match ← d.find p.toText with
  | .directory => throw (.isDirectory p.toText)
  | .text s => return Text.normalizeNewlines s.toList
  | .bytes bs => match Text.readText bs with
    | .ok text => return text
    | .error e => throw (.undecodable e)

def text? (d : Disk) (p : SourcePath) : Option (List Char) := (d.readText p).toOption

/-- Writes a file, whose directory has to be there. The path is given as it was written. -/
def write (d : Disk) (path : String) (c : Content) : Except Fault Disk := do
  let p ← d.locate path
  if Text.ends path "/" || d.holdsDirectory p then throw (.isDirectory path)
  else return ⟨d.entries.set p c⟩

/-! ## Filling and listing -/

/-- Adds the directories above a path that are missing, outer ones first. -/
def ensureParents (d : Disk) (p : SourcePath) : Disk :=
  let above := p.resolve.parts.dropLast
  (List.range above.length).foldl
    (fun d n => ⟨d.entries.ensure ⟨p.root, above.take (n + 1)⟩ .directory⟩) d

def put (d : Disk) (p : SourcePath) (c : Content) : Disk :=
  ⟨(d.ensureParents p).entries.set p.resolve c⟩

def isJavaName (name : String) : Bool := Text.ends name ".java"

/-- The Java files below a directory, in listing order. Directories with such a name are listed as
well; reading them fails. -/
def javaFiles (d : Disk) (root : SourcePath) : List SourcePath :=
  match d.locate root.toText with
  | .error _ => []
  | .ok place =>
    if !d.holdsDirectory place then []
    else d.entries.entries.filterMap fun e =>
      match e.1.relativeTo? place with
      | some rest =>
        if isJavaName e.1.name && !rest.parts.isEmpty then some (root.child rest.parts) else none
      | none => none

/-- The plain files directly in a directory, with what they hold. -/
def filesIn (d : Disk) (directory : SourcePath) : List (String × Content) :=
  d.entries.entries.filterMap fun e =>
    match e.1.relativeTo? directory.resolve with
    | some rest => match rest.parts, e.2 with
      | [_], .directory => none
      | [name], c => some (name, c)
      | _, _ => none
    | none => none

end Disk

end JavaDeps
