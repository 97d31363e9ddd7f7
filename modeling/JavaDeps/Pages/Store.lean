import JavaDeps.Session

/-!
# The store of page functions

Operations on the table of page functions over a connection. A failing operation reports what went
wrong and answers with nothing. What it changed lasts only if the change was committed.
-/

namespace JavaDeps

/-- The settings of a connection to the table. They should be a record; the first connection fails
when they are not. -/
structure Store where
  settings : Value

/-- A page function in the list of all functions. -/
structure ListedFunction where
  id : String
  functionId : Value
  name : Value
  controller : Value
  service : Value

namespace ListedFunction

def toValue (f : ListedFunction) : Value :=
  let name := f.name.display
  let controller := f.controller.display
  let service := f.service.display
  .obj
    [("id", .str f.id), ("function_id", f.functionId), ("name", f.name),
     ("controller", f.controller), ("service", f.service),
     ("file", .str ("Frontend/" ++ name ++ " -> " ++ controller ++ " -> " ++ service)),
     ("type", .str "html"),
     ("description",
       .str ("HTML/JS function: " ++ name ++ " → " ++ controller ++ " → " ++ service)),
     ("dependencies", .int 2)]

end ListedFunction

namespace PageFunction

def ofRow (r : FunctionRow) : PageFunction where
  id := "html_" ++ r.id.display
  functionId := r.id
  name := r.name
  controller := r.controller
  file := "Frontend/" ++ r.name.display ++ " -> " ++ r.controller.display
  description := "HTML/JS function: " ++ r.name.display ++ " calls " ++ r.controller.display

def toValue (f : PageFunction) : Value :=
  .obj
    [("id", .str f.id), ("function_id", f.functionId), ("name", f.name),
     ("controller", f.controller), ("file", .str f.file), ("type", .str "html"),
     ("description", .str f.description), ("dependencies", .int 1)]

end PageFunction

namespace Store

def standardSettings : List (String × Value) :=
  [("host", .str "localhost"), ("port", .str "5432"), ("database", .str "graph"),
   ("user", .str "postgres"), ("password", .str "123456"), ("schema", .str "public")]

def standard : Store := ⟨.obj standardSettings⟩

def fields (s : Store) : Except Fault (List (String × Value)) :=
  match s.settings with
  | .obj fields => .ok fields
  | v => .error (.noMember v.kind "items")

def setting (s : Store) (name : String) : Except Fault Value :=
  match s.settings.field? name with
  | some v => .ok v
  | none => .error (.missingKey (Text.quoted name))

def connect : Action FunctionTable := do
  match (← get).store with
  | some t => return t
  | none => throw (.noConnection "connection refused")

def close (t : FunctionTable) : Action Unit := orFail t.engine.close

/-- Makes the changes of a connection last. Without this they are lost when it is closed. -/
def commit (t : FunctionTable) : Action Unit := do
  orFail (t.engine.commit t.rows)
  modify (fun s => { s with store := some t })

/-- Tries the connection, reports how it went and fails when it did not work. -/
def tryConnection (s : Store) : Action Unit := do
  let tried ← attempt do
    let _ ← orFail s.fields
    close (← connect)
    let database ← orFail (s.setting "database")
    say ("✅ Connected to PostgreSQL database: " ++ database.display)
  match tried with
  | .ok _ => return ()
  | .error e =>
    sayAll
      ["❌ Failed to connect to PostgreSQL: " ++ e.message,
       "   Config: " ++ s.settings.display,
       "   💡 Kiểm tra db_config.py hoặc environment variables"]
    throw e

def all (s : Store) : Action (List ListedFunction) := do
  let tried ← attempt do
    let t ← connect
    let _ ← orFail (s.setting "schema")
    orFail (t.require functionColumns)
    let found := t.sortedByName.map (fun r =>
      { id := "html_" ++ r.id.display, functionId := r.id, name := r.name,
        controller := r.controller, service := r.service : ListedFunction })
    close t
    say ("✅ Loaded " ++ Text.ofNat found.length ++ " HTML functions from database")
    return found
  match tried with
  | .ok found => return found
  | .error e => do
    say ("❌ Error loading HTML functions: " ++ e.message)
    return []

def idMark : String := "html_"

def plainId (id : String) : String := Text.replace id idMark ""

def plainIds : List Value → Except Fault (List String)
  | [] => .ok []
  | v :: rest => do
    if ← v.holds idMark then
      let id ← v.textFor "replace"
      let others ← plainIds rest
      return plainId id :: others
    else plainIds rest

def foundRecord (r : FunctionRow) : Value :=
  .obj
    [("id", .str ("html_" ++ r.id.display)), ("function_id", r.id), ("name", r.name),
     ("file", .str ("Frontend/" ++ r.name.display)), ("type", .str "html"),
     ("description", .str ("HTML/JS function: " ++ r.name.display)), ("dependencies", .int 1)]

def byIds (s : Store) (ids : Value) : Action (List Value) := do
  if !ids.isTruthy then return []
  let tried ← attempt (α := List Value) do
    let t ← connect
    let plain ← orFail (do plainIds (← ids.elements))
    if plain.isEmpty then return []
    let _ ← orFail (s.setting "schema")
    orFail (t.require ["function_id", "function_name"])
    let rows ← orFail (t.withIds plain)
    close t
    return rows.map foundRecord
  match tried with
  | .ok found => return found
  | .error e => do
    say ("❌ Error loading HTML functions by IDs: " ++ e.message)
    return []

def byId (s : Store) (id : Value) : Action (Option PageFunction) := do
  let tried ← attempt do
    let t ← connect
    let text ← orFail (id.textFor "replace")
    let _ ← orFail (s.setting "schema")
    orFail (t.require ["function_id", "function_name", "controller"])
    let rows ← orFail (t.withId (plainId text))
    close t
    return rows.head?.map PageFunction.ofRow
  match tried with
  | .ok found => return found
  | .error e => do
    say ("❌ Error loading HTML function by ID: " ++ e.message)
    return none

def addController (s : Store) (t : FunctionTable) (found : Table String Value) (id : Value) :
    Action (Table String Value) := do
  let text ← orFail (id.textFor "startswith")
  if Text.starts text idMark then
    let _ ← orFail (s.setting "schema")
    orFail (t.require ["controller", "function_name", "function_id"])
    match (← orFail (t.withId (plainId text))).head? with
    | some r =>
      if r.controller.isTruthy then
        say ("🔗 " ++ text ++ " → " ++ r.controller.display ++ " (from " ++ r.name.display ++ ")")
        return found.set text r.controller
      else
        say ("⚠️ No controller mapping found for " ++ text)
        return found
    | none =>
      say ("⚠️ No controller mapping found for " ++ text)
      return found
  else return found

/-- The search for controllers is over: a failure is reported, and what was found stays. -/
def endSearch (found : Table String Value) : Except Fault Unit → Action (Table String Value)
  | .ok _ => pure found
  | .error e => do
    say ("❌ Error getting controller mappings: " ++ e.message)
    return found

/-- Adds the controllers of several functions. The first failure ends the search. -/
def addControllers (s : Store) (t : FunctionTable) (found : Table String Value) :
    List Value → Action (Table String Value)
  | [] => do endSearch found (← attempt (close t))
  | id :: rest => do
    match ← attempt (s.addController t found id) with
    | .ok found => addControllers s t found rest
    | .error e => endSearch found (.error e)

/-- The controllers of the functions with the given ids, by id. -/
def controllers (s : Store) (ids : Value) : Action (Table String Value) := do
  match ← attempt (do
      let t ← connect
      let ids ← orFail ids.elements
      return (t, ids)) with
  | .ok (t, ids) => s.addControllers t Table.empty ids
  | .error e => endSearch Table.empty (.error e)

def clear (s : Store) : Action Unit := do
  let tried ← attempt do
    let t ← connect
    let _ ← orFail (s.setting "schema")
    let t ← orFail t.delete
    say "   🧹 Cleared HTML functions"
    commit t
    close t
    say "✅ Database cleared successfully"
  match tried with
  | .ok _ => return ()
  | .error e => say ("❌ Error clearing database: " ++ e.message)

/-- Adds a function. The answer is whether nothing went wrong. -/
def add (s : Store) (name description : Value) : Action Bool := do
  let tried ← attempt do
    let t ← connect
    let _ ← orFail (s.setting "schema")
    let t ← orFail (t.add (name.display ++ " - " ++ description.display))
    commit t
    close t
  match tried with
  | .ok _ => return true
  | .error e => do
    say ("❌ Error adding function " ++ name.display ++ ": " ++ e.message)
    return false

/-- Links a page function to a controller. Controllers are given by the rows of the table, so that
nothing needs to be kept and the link always succeeds. -/
def linkController (_id _controller : Value) : Bool := true

/-! ## Settings -/

def setupInstructions : String :=
  "\n🔧 PostgreSQL Setup Instructions:\n\n"
    ++ "1. Đảm bảo PostgreSQL đang chạy\n"
    ++ "2. Tạo database 'graph' nếu chưa có:\n"
    ++ "   CREATE DATABASE graph;\n\n"
    ++ "3. Tạo table html_function:\n"
    ++ "   CREATE TABLE public.html_function (\n"
    ++ "       function_id VARCHAR(255) PRIMARY KEY,\n"
    ++ "       function_name VARCHAR(255) NOT NULL\n"
    ++ "   );\n\n"
    ++ "4. Thêm sample data (optional):\n"
    ++ "   INSERT INTO public.html_function (function_id, function_name) VALUES\n"
    ++ "   ('login_form', 'loginForm()'),\n"
    ++ "   ('user_list', 'displayUsers()'),\n"
    ++ "   ('order_submit', 'submitOrder()'),\n"
    ++ "   ('product_search', 'searchProducts()'),\n"
    ++ "   ('payment_process', 'processPayment()');\n\n"
    ++ "5. Cấu hình connection bằng environment variables:\n"
    ++ "   set DB_HOST=localhost\n"
    ++ "   set DB_PORT=5432\n"
    ++ "   set DB_NAME=graph\n"
    ++ "   set DB_USER=postgres\n"
    ++ "   set DB_PASSWORD=your_password\n"
    ++ "   set DB_SCHEMA=public\n\n"
    ++ "   Hoặc sửa trực tiếp trong db_config.py\n"

def requiredSettings : List String := ["host", "port", "database", "user", "password"]

/-- The text of a setting, shown as nothing when the setting is absent. -/
def settingText (s : Store) (name : String) : String :=
  ((s.settings.field? name).getD .null).display

def lacks (s : Store) (name : String) : Bool :=
  match s.settings.field? name with
  | some v => !v.isTruthy || v.isText "your_password_here"
  | none => true

def checkSettings (s : Store) : Action Bool := do
  let missing := requiredSettings.filter s.lacks
  if missing.isEmpty then
    say ("✅ Database configuration OK: " ++ s.settingText "user" ++ "@" ++ s.settingText "host"
      ++ ":" ++ s.settingText "port" ++ "/" ++ s.settingText "database")
    return true
  else
    say ("❌ Missing database configuration: " ++ Text.join ", " missing)
    say setupInstructions
    return false

def withSettings (changes : List (String × Value)) : Store :=
  ⟨.obj (Table.ofList (standardSettings ++ changes)).entries⟩

end Store

end JavaDeps
