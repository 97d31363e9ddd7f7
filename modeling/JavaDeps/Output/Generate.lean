import JavaDeps.Dot.Project
import JavaDeps.Graph.Summary
import JavaDeps.Output.Page

/-!
# Writing a drawing

A drawing is written together with the description of the graph; the drawing tool makes an image and
a map from it, and both are put into a page.

The file defines:
- `drawImage` and `drawMap`, the two runs of the drawing tool;
- `reportSummary` and `reportFullSummary`;
- `generate`, which writes everything.
-/

namespace JavaDeps

/-! ## The drawing tool -/

def drawImage (drawing path : String) : Action Bool := do
  match ← attempt (runTool (.image drawing path)) with
  | .ok (code, errors) =>
    if code == 0 then return true
    else
      say ("❌ Graphviz error: " ++ errors)
      return false
  | .error (.noFile _) =>
    say "❌ Graphviz not found. Please install Graphviz: https://graphviz.org/download/"
    return false
  | .error e =>
    say ("❌ Error generating image: " ++ e.message)
    return false

def drawMap (drawing path : String) : Action Bool := do
  match ← attempt (runTool (.map drawing path)) with
  | .ok (code, errors) =>
    if code == 0 then return true
    else
      say ("❌ Graphviz map error: " ++ errors)
      return false
  | .error e =>
    say ("❌ Error generating image map: " ++ e.message)
    return false

/-! ## Summaries -/

def reportSummary : Action Unit := do
  sayAll (← orFail (← theGraph).summary)

def reportFullSummary : Action Unit := do
  reportSummary
  sayAll (← theProject).facts.summary

/-! ## Everything together -/

/-- Writes drawing, description, image, map and page. The answer is the names of the page and of the
description when image and map were made. -/
def generatePlain (name : String) : Action (Option (String × String)) := do
  let files := OutputFiles.ofName name
  let text ← orFail (← theProject).dotText
  writeFile files.drawing (.text text)
  let s ← get
  let metadata ← orFail (s.project.graph.metadata s.workingDirectory)
  writeFile files.metadata (.text metadata.asciiJson)
  let image ← drawImage files.drawing files.image
  let map ← drawMap files.drawing files.map
  if image && map then
    writePage files metadata
    sayAll
      ["✅ Enhanced dependency graph generated:",
       "  📄 DOT file: " ++ files.drawing,
       "  🖼️  Image: " ++ files.image,
       "  🗺️  Image map: " ++ files.map,
       "  🌐 HTML: " ++ files.page,
       "  📊 Metadata: " ++ files.metadata]
    return some (files.page, files.metadata)
  else
    say "❌ Error generating image or map files"
    return none

/-- Writes everything, and reports the full summary when there is one. -/
def generate (name : String) : Action (Option (String × String)) := do
  let result ← generatePlain name
  if (← theProject).depth != .plain then reportFullSummary
  return result

end JavaDeps
