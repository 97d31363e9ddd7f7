import JavaDeps.Opening
import JavaDeps.Output.Generate
import JavaDeps.Selection.Pages

/-!
# A trial run

The file defines `trialRun`, which analyses a fixed project, selects one page function, draws the
graph and reports what was found of page functions on the way.
-/

namespace JavaDeps

def trialProject : String := "java-test-project2"

def trialDrawing : String := "test_dependencies.dot"

def PageLinks.lines (p : PageLinks) : List String :=
  let components := p.components.entries.map (fun e => (e.1.display, e.2))
  ["   selected_html_functions: " ++ (Value.list (p.functions.map PageFunction.toValue)).quoted,
   "   html_to_java_mappings: " ++ (Value.obj components).quoted]

def sayPages (p : PageLinks) : Action Unit := do
  if !p.functions.isEmpty then
    say "\n✅ HTML functions data stored:"
    sayAll (p.functions.map (fun f =>
      "   - " ++ f.name.display ++ " (ID: " ++ f.functionId.display ++ ")"))
  if !p.components.isEmpty then
    say "\n✅ HTML→Java mappings stored:"
    sayAll (p.components.entries.map (fun e => "   - " ++ e.1.display ++ " → " ++ e.2.display))

/-- Reports the lines of the drawing that are about page functions. -/
def sayDrawnPages : Action Unit := do
  let text ← orFail ((← get).disk.readText (SourcePath.ofText trialDrawing))
  let lines := (Text.split (String.ofList text) '\n').filter (fun line => Text.within "HTML_" line)
  if lines.isEmpty then say "❌ No HTML nodes found in DOT file"
  else
    say "✅ HTML nodes found in DOT file!"
    sayAll (lines.map (fun line => "   " ++ Text.strip line))

/-- Analyses the project, selects a page function and draws the graph. -/
def trialRun : Action Unit := do
  say "🔍 Testing HTML graph generation..."
  openProject .paged trialProject
  analyze
  say "📋 Before filter_by_selection:"
  sayAll (← theProject).pages.lines
  filterProject (Value.ofNames ["html_1"])
  say "\n📋 After filter_by_selection:"
  let pages := (← theProject).pages
  sayAll pages.lines
  sayPages pages
  say "\n📊 Generating graph..."
  match ← generate trialDrawing with
  | some (page, _) =>
    say ("✅ Graph generated: " ++ page)
    sayDrawnPages
  | none => say "❌ Failed to generate graph"

end JavaDeps
