import JavaDeps.Selection.Pages
import JavaDeps.Web.Edit
import JavaDeps.Web.Listing
import JavaDeps.Web.Port

/-!
# The server

A server shows a drawing or the list of functions, and answers requests for lists, edits and new
drawings.

The file defines:
- `Server`, with `Server.create` and the two ways to start it;
- `Request` and `Response`, and `Server.respond`.
-/

namespace JavaDeps

/-- A server. -/
structure Server where
  kind : ServerKind
  /-- Whether the server works on the project of the session. -/
  hasProject : Bool
  /-- The page to show. -/
  page? : Option SourcePath
  port : Int

namespace Server

def firstPort : Int := 8000

/-- Makes a server. With page functions it needs their table. -/
def create (kind : ServerKind) (hasProject : Bool) (page : String) : Action Server := do
  if kind == .withPages then Store.standard.tryConnection
  return {
    kind := kind
    hasProject := hasProject
    page? := if page.isEmpty then none else some (SourcePath.ofText page)
    port := firstPort }

def address (port : Int) : String := "http://localhost:" ++ Text.ofInt port

def openPage (url : String) : Action Unit :=
  modify (fun s => { s with opened := s.opened ++ [url] })

/-- Listens on a port, reports and opens a page, and is stopped at once. The answer is the outcome
of the search for the port. -/
def listen (s : Server) (greeting : Int → List String) (name : String) : Action PortSearch := do
  let search := searchPorts (← get).ports s.port
  match search.last with
  | .listens _ =>
    sayAll (greeting search.port)
    openPage (address search.port ++ "/" ++ name)
    say "\n⏹️ Server stopped"
    return search
  | .refused =>
    say "Cannot find available port"
    return search
  | .fails e => throw e

def pageGreeting (page : SourcePath) (port : Int) : List String :=
  ["🌐 Starting web server at " ++ address port,
   "📂 Serving files from: " ++ page.parent.toText,
   "🌐 HTML file: " ++ page.toText,
   "✏️ Graph editing enabled"]

def startPage (s : Server) : Action (Option PortSearch) := do
  match s.page? with
  | some page =>
    if ← orFail ((← get).disk.exists? page) then
      return some (← s.listen (pageGreeting page) page.name)
    else
      say ("❌ HTML file not found: " ++ page.toText)
      return none
  | none =>
    say "❌ HTML file not found: None"
    return none

def selectorPage : String := "function_selector.html"

def selectorGreeting (directory : SourcePath) (port : Int) : List String :=
  ["🌐 Starting function selector at " ++ address port,
   "📂 Serving files from: " ++ directory.toText,
   "🎯 Function selector: " ++ selectorPage]

def startSelector (s : Server) : Action PortSearch := do
  s.listen (selectorGreeting (← get).programDirectory) selectorPage

end Server

/-! ## Requests -/

/-- A request: its method, its path and what was sent with it. -/
structure Request where
  method : String
  path : String
  body? : Option String

/-- A response: a status and, when all went well, a record. -/
structure Response where
  status : Nat
  body? : Option Value

namespace Response

def ok (body : Value) : Response := ⟨200, some body⟩

def failed (status : Nat) : Response := ⟨status, none⟩

end Response

namespace Server

def listAnswer (functions : List Value) : Value :=
  .obj [("success", .bool true), ("functions", .list functions)]

def pageFunctions (s : Server) : Action (List Value) := do
  if s.hasProject then
    if (← theProject).hasStore then
      return (← Store.standard.all).map ListedFunction.toValue
    else throw (.noMember "NoneType" "get_all_functions")
  else return []

def answerGet (s : Server) (path : String) : Action Value := do
  if path == "/api/functions" && s.hasProject then return listAnswer (← functionList s.kind)
  else if path == "/api/html-functions" && s.kind == .withPages then
    return listAnswer (← s.pageFunctions)
  else return answer false "Unknown API endpoint"

def drawSelection (ids : Value) (drawing : String) : Action Value := do
  filterProject ids
  match ← generate drawing with
  | some (page, metadata) =>
    let count ← orFail ids.length
    return .obj
      [("success", .bool true),
       ("message", .str ("Graph đã được tạo với " ++ Text.ofNat count ++ " functions")),
       ("html_file", .str page), ("metadata_file", .str metadata)]
  | none => return answer false "Không thể tạo graph"

def answerGenerate (fields : List (String × Value)) (drawing : String) : Action Value := do
  let ids := (fields.lookup "selectedFunctions").getD (.list [])
  if ids.isTruthy then
    match ← attempt (drawSelection ids drawing) with
    | .ok v => return v
    | .error e => return answer false ("Lỗi khi tạo graph: " ++ e.message)
  else return answer false "Không có function nào được chọn"

def fieldsOf : Value → Except Fault (List (String × Value))
  | .obj fields => .ok fields
  | v => .error (.noMember v.kind "get")

def answerPost (s : Server) (path drawing : String) (data : Value) : Action Value := do
  if path == "/api/generate" && s.hasProject then
    answerGenerate (← orFail (fieldsOf data)) drawing
  else if path == "/api/edit" && s.hasProject then
    (Command.ofFields (← orFail (fieldsOf data))).run drawing
  else return unknownCommand

def respondWith (act : Action Value) : Action Response := do
  match ← attempt act with
  | .ok v => return Response.ok v
  | .error _ => return Response.failed 500

def normalPath (path : String) : String :=
  if Text.starts path "//" then "/" ++ String.ofList (path.toList.dropWhile (· == '/')) else path

/-- Responds to a request with a known path. The drawing is the file that a new drawing is written
to. -/
def respondTo (s : Server) (method path drawing : String) (body? : Option String) :
    Action Response := do
  let isApi := Text.starts path "/api/"
  match method with
  | "GET" => if isApi then respondWith (s.answerGet path) else return Response.failed 404
  | "HEAD" => return Response.failed 404
  | "POST" =>
    if isApi then
      match body? with
      | some text => match Value.ofJson? text with
        | some data => respondWith (s.answerPost path drawing data)
        | none => return Response.failed 500
      | none => return Response.failed 500
    else return Response.failed 404
  | _ => return Response.failed 501

/-- Responds to a request, whose method and path have to be a single word each. -/
def respond (s : Server) (r : Request) (drawing : String) : Action Response :=
  match Text.words r.method, Text.words r.path with
  | [method], [path] => s.respondTo method (normalPath path) drawing r.body?
  | _, _ => pure (Response.failed 400)

end Server

end JavaDeps
