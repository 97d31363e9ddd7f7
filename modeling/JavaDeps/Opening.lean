import JavaDeps.Pages.Store

/-!
# Opening a project

The file defines `openProject`, which starts a project for a directory and tries the connection to
the table of page functions.
-/

namespace JavaDeps

/-- Starts a project. It goes on without page functions when their table cannot be reached. -/
def openProject (depth : Depth) (root : String) : Action Unit := do
  let hasStore ← match ← attempt Store.standard.tryConnection with
    | .ok _ =>
      say "✅ HTML Database initialized successfully"
      pure true
    | .error e =>
      say ("❌ Failed to initialize HTML Database: " ++ e.message)
      pure false
  modifyProject (fun _ =>
    { depth := depth, hasStore := hasStore, graph := Graph.ofRoot (SourcePath.ofText root) })

end JavaDeps
