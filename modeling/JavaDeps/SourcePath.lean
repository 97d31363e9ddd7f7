import JavaDeps.SortedSet

/-!
# Paths

A path is a root mark and a list of names. Empty names and single dots are dropped when a path is
read; two dots stay.

The file defines:
- `SourcePath`, with `ofText` and `toText`;
- `name`, `stem`, `parent`, `child` and `relativeTo?`;
- `resolve`, which takes the two-dot names away.
-/

namespace JavaDeps

/-- A path: the slashes at its start, and its names. -/
structure SourcePath where
  root : String
  parts : List String
  deriving DecidableEq, Repr

namespace SourcePath

instance : Inhabited SourcePath := ⟨⟨"", []⟩⟩

/-- The root mark of a written path: exactly two leading slashes are kept apart from one or more. -/
def rootMark : List Char → String
  | '/' :: '/' :: '/' :: _ => "/"
  | '/' :: '/' :: _ => "//"
  | '/' :: _ => "/"
  | _ => ""

def ofText (text : String) : SourcePath :=
  ⟨rootMark text.toList, (Text.split text '/').filter (fun p => p != "" && p != ".")⟩

def toText (p : SourcePath) : String :=
  let names := Text.join "/" p.parts
  if p.root.isEmpty && p.parts.isEmpty then "." else p.root ++ names

def name (p : SourcePath) : String := (p.parts.getLast?).getD ""

/-- A name without its last extension. A dot in first or last place starts no extension. -/
def stemOf (name : List Char) : List Char :=
  let extension := name.reverse.takeWhile (· != '.')
  let keep := name.length - extension.length - 1
  if name.contains '.' && keep != 0 && !extension.isEmpty then name.take keep else name

def stem (p : SourcePath) : String := String.ofList (stemOf p.name.toList)

def parent (p : SourcePath) : SourcePath := ⟨p.root, p.parts.dropLast⟩

def child (p : SourcePath) (parts : List String) : SourcePath := ⟨p.root, p.parts ++ parts⟩

def relativeTo? (p directory : SourcePath) : Option SourcePath :=
  if p.root == directory.root && directory.parts.isPrefixOf p.parts then
    some ⟨"", p.parts.drop directory.parts.length⟩
  else none

def resolveParts : List String → List String → List String
  | done, [] => done.reverse
  | done, part :: rest =>
    if part == ".." then
      match done with
      | [] => resolveParts [part] rest
      | last :: before =>
        if last == ".." then resolveParts (part :: done) rest else resolveParts before rest
    else resolveParts (part :: done) rest

def resolve (p : SourcePath) : SourcePath := ⟨p.root, resolveParts [] p.parts⟩

/-- Paths are ordered by their written form, before texts. -/
instance : Ranked SourcePath := ⟨fun p => [(p.toText, 0)]⟩

end SourcePath

end JavaDeps
