import JavaDeps.Pattern.Match
import JavaDeps.Output.Files
import JavaDeps.Session
import JavaDeps.Value.Json

/-!
# The page of a drawing

The page shows the image of a drawing with the map over it. It is made from a template, in which
marks stand for the image, the map and the description of the graph.
-/

namespace JavaDeps

def mapTag : Pattern :=
  .literal "<map" ++ .many1 (· != '>') ++ .literal "name=\"" ++ .group 1 (.many (· != '"'))
    ++ .char '"'

def mapName (map : List Char) : String := (mapTag.firstCapture? map).getD "dependency_map"

def templateMark (name : String) : String := "\x7b" ++ name ++ "\x7d"

def fillTemplate (template map : List Char) (image metadata : String) : String :=
  let page := Text.replace (String.ofList template) (templateMark "IMAGE_FILENAME") image
  let page := Text.replace page (templateMark "MAP_NAME") (mapName map)
  let page := Text.replace page (templateMark "MAP_CONTENT") (String.ofList map)
  Text.replace page (templateMark "METADATA_JSON") metadata

def Session.template (s : Session) : SourcePath :=
  s.programDirectory.child ["dependency_template3.html"]

def writeFilledPage (files : OutputFiles) (metadata : Value) : Action Unit := do
  let s ← get
  let template ← orFail (s.disk.readText s.template)
  let map ← orFail (s.disk.readText (SourcePath.ofText files.map))
  let image := (SourcePath.ofText files.image).name
  writeFile files.page (.text (fillTemplate template map image metadata.asciiJson))

def sayNoTemplate (template : SourcePath) : Action Unit :=
  sayAll
    ["❌ Template file not found: " ++ template.toText,
     "Please ensure 'dependency_template3.html' is in the same directory as this script."]

def writePage (files : OutputFiles) (metadata : Value) : Action Unit := do
  let s ← get
  let tried ← attempt do
    if ← orFail (s.disk.exists? s.template) then writeFilledPage files metadata
    else sayNoTemplate s.template
  match tried with
  | .ok _ => return ()
  | .error e => say ("❌ Error generating HTML: " ++ e.message)

end JavaDeps
