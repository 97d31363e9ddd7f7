import JavaDeps.Cli.Help
import JavaDeps.Opening
import JavaDeps.Web.Server

/-!
# The command line

Two programs analyse a directory and either write a drawing or show the list of functions for a
selection. They differ in what they report.

The file defines:
- what a `Program` reports;
- `run`, which carries out a command line and gives the exit code.
-/

namespace JavaDeps.Cli

namespace Program

def toolHint : List String :=
  ["❌ Graphviz không được tìm thấy!",
   "   Vui lòng cài đặt Graphviz:",
   "   - Ubuntu/Debian: sudo apt-get install graphviz",
   "   - macOS: brew install graphviz",
   "   - Windows: Tải từ https://graphviz.org/download/"]

def analyse (p : Program) (source : String) : Action Unit :=
  match p with
  | usual => do
    openProject .paged source
    say ("🔍 Đang phân tích các file Java trong: " ++ source)
    analyze
    reportSummary
  | detailed => do
    say "🚀 Initializing Enhanced Java Dependency Analyzer..."
    openProject .paged source
    sayAll
      ["🔍 Đang thực hiện enhanced analysis cho: " ++ source,
       "This includes:",
       "  📋 Interface-Implementation detection",
       "  🔀 Conditional method calls (if/switch)",
       "  ⛓️ Method chaining analysis",
       "  💉 Annotation-based dependencies",
       "  📝 Field type analysis"]
    analyze

def resultLines (p : Program) (page metadata image : String) : List String :=
  match p with
  | usual =>
    ["", "💡 Usage options:",
     "  🌐 Open HTML: Mở file " ++ page ++ " trong browser",
     "  🖼️ View Image: Mở file " ++ image,
     "  ✏️ Graph Editing: Available in web interface"]
  | detailed =>
    ["", "💡 Enhanced Analysis Results:",
     "  🌐 Interactive HTML: " ++ page,
     "  🖼️ Graph Image: " ++ image,
     "  📊 Metadata: " ++ metadata,
     "  ✏️ Graph Editing: Available in web interface"]

def launchLine : Program → String
  | usual => "\n🚀 Launching web interface..."
  | detailed => "\n🚀 Launching enhanced web interface..."

def selectorLine : Program → String
  | usual => "\n🎯 Khởi động giao diện lựa chọn functions..."
  | detailed => "\n🎯 Khởi động enhanced function selector..."

end Program

def makeServer (page : String) (port : Int) : Action Server := do
  let server ← Server.create .withPages true page
  return { server with port := port }

/-- Writes the drawing and shows its page where this is asked for. -/
def draw (p : Program) (o : Options) : Action Unit := do
  match ← generate o.output with
  | some (page, metadata) =>
    sayAll (p.resultLines page metadata (OutputFiles.ofName o.output).image)
    if o.web then
      say p.launchLine
      let server ← makeServer page o.port
      let _ ← server.startPage
    else
      say ("\n🌐 To launch web interface: python " ++ p.fileName ++ " " ++ o.source ++ " --web")
  | none => say "\n❌ Failed to generate interactive HTML. Check Graphviz installation."

def select (p : Program) (o : Options) : Action Unit := do
  say p.selectorLine
  let server ← makeServer Server.selectorPage o.port
  let _ ← server.startSelector

def runWith (p : Program) (o : Options) : Action Unit := do
  if !(← get).disk.holds o.source then
    say ("❌ Lỗi: Thư mục '" ++ o.source ++ "' không tồn tại")
  else match ← attempt (runTool .version) with
    | .ok (code, _) =>
      if code == 0 then
        p.analyse o.source
        if o.direct then draw p o else select p o
      else sayAll Program.toolHint
    | .error (.noFile _) => sayAll Program.toolHint
    | .error e => throw e

/-- Carries out a command line. The answer is the exit code. -/
def run (p : Program) (words : List String) : Action Nat := do
  match Options.parse p.drawing words with
  | .run o =>
    runWith p o
    return 0
  | .help =>
    sayAll p.help
    return 0
  | .refused => return 2

end JavaDeps.Cli
