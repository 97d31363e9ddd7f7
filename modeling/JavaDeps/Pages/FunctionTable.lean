import JavaDeps.Value.Basic

/-!
# The table of page functions

Page functions are kept in a table with the columns `function_id`, `function_name`, `controller`
and `service`. A table may lack columns; a statement that names a missing column fails. Whatever
else the database decides is given by its `Engine`: how it compares an id with a text, which number
a new row gets, and whether it carries out a change.
-/

namespace JavaDeps

/-- A row of the table. -/
structure FunctionRow where
  id : Value
  name : Value
  controller : Value
  service : Value
  deriving Repr

/-- What a database decides about the statements that it is sent. Each of them may be refused. -/
structure Engine where
  /-- `function_id = text`: the ids that equal the text. A text that is no value of the column's
  type cannot be compared. -/
  equals : String → Except Fault (Value → Bool)
  /-- `COALESCE(MAX(function_id), 0) + 1` over the ids of the table. -/
  nextId : List Value → Except Fault Int
  /-- `INSERT`: whether the row can be added to those that are there. -/
  insert : List FunctionRow → FunctionRow → Except Fault Unit
  /-- `DELETE`: whether the rows can be removed. -/
  delete : List FunctionRow → Except Fault Unit
  /-- Whether a change that leads to these rows can be made to last. -/
  commit : List FunctionRow → Except Fault Unit
  /-- Whether a connection can be closed. -/
  close : Except Fault Unit
  /-- The type of a column, as the database names it. -/
  columnType : String → String

def functionColumns : List String := ["function_id", "function_name", "controller", "service"]

/-- A table: the columns it has, its rows, and the database that keeps it. What a missing column
would hold is nothing. -/
structure FunctionTable where
  columns : List String
  rows : List FunctionRow
  engine : Engine

namespace FunctionTable

def require (t : FunctionTable) (names : List String) : Except Fault Unit :=
  match names.find? (fun n => !t.columns.contains n) with
  | some n => .error (.badStatement ("column \"" ++ n ++ "\" does not exist"))
  | none => .ok ()

/-- The order of names and ids: numbers by size, then texts by code points, nothing last. -/
def valueBefore (a b : Value) : Bool :=
  match a, b with
  | .null, _ => false
  | _, .null => true
  | .int m, .int n => decide (m < n)
  | .int _, _ => true
  | _, .int _ => false
  | a, b => Text.precedes a.display b.display

/-- The rows in the order of their names; rows of one name keep their order. -/
def sortedByName (t : FunctionTable) : List FunctionRow :=
  sortBy (fun a b => valueBefore a.name b.name) t.rows

/-- The rows in the order of their ids; rows of one id keep their order. -/
def sortedById (t : FunctionTable) : List FunctionRow :=
  sortBy (fun a b => valueBefore a.id b.id) t.rows

def withId (t : FunctionTable) (id : String) : Except Fault (List FunctionRow) := do
  let same ← t.engine.equals id
  return t.rows.filter (fun r => same r.id)

def withIds (t : FunctionTable) (ids : List String) : Except Fault (List FunctionRow) := do
  let tests ← ids.mapM t.engine.equals
  return t.rows.filter (fun r => tests.any (fun same => same r.id))

def append (t : FunctionTable) (r : FunctionRow) : FunctionTable := { t with rows := t.rows ++ [r] }

def insert (t : FunctionTable) (columns : List String) (r : FunctionRow) :
    Except Fault FunctionTable := do
  t.require columns
  t.engine.insert t.rows r
  return t.append r

def add (t : FunctionTable) (name : String) : Except Fault FunctionTable := do
  t.require ["function_id"]
  let n ← t.engine.nextId (t.rows.map FunctionRow.id)
  t.insert ["function_id", "function_name"] ⟨.int n, .str name, .null, .null⟩

def cleared (t : FunctionTable) : FunctionTable := { t with rows := [] }

def delete (t : FunctionTable) : Except Fault FunctionTable := do
  t.engine.delete t.rows
  return t.cleared

def addColumn (t : FunctionTable) (name : String) : Except Fault FunctionTable :=
  if t.columns.contains name then
    .error (.badStatement
      ("column \"" ++ name ++ "\" of relation \"html_function\" already exists"))
  else .ok { t with columns := t.columns ++ [name] }

end FunctionTable

end JavaDeps
