import JavaDeps.Text.Basic

/-!
# Output files

A drawing goes into several files, whose names are made from the name of the first one.

The file defines `OutputFiles` and `OutputFiles.ofName`.
-/

namespace JavaDeps

/-- The files that belong to a drawing. -/
structure OutputFiles where
  drawing : String
  metadata : String
  image : String
  map : String
  page : String
  deriving DecidableEq, Repr

/-- The names of the output files. The extension `.dot` is replaced wherever it stands. -/
def OutputFiles.ofName (name : String) : OutputFiles where
  drawing := name
  metadata := Text.replace name ".dot" "_metadata.json"
  image := Text.replace name ".dot" ".png"
  map := Text.replace name ".dot" ".map"
  page := Text.replace name ".dot" ".html"

end JavaDeps
