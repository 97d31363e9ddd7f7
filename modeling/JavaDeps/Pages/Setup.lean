import JavaDeps.Pages.Seed
import JavaDeps.Pages.Store

/-!
# Setting up the table

Operations that fill the table of page functions, change its columns or show them. What goes wrong
is reported.

The file defines:
- `Store.addGiven`, which adds a function from a list of arguments;
- `insertSamples`, `recreateFunctions` and `setUpShop`, which fill the table;
- `addControllerColumn` and `insertLinked`, which go over to rows with controllers;
- `showColumns`.
-/

namespace JavaDeps

def functionParameters : List String := ["name", "file", "func_type", "description"]

/-- Adds a function from its arguments, none of which may be missing. -/
def Store.addGiven (s : Store) : List Value → Action Bool
  | [name, _, _, description] => s.add name description
  | given =>
    throw (.missingArguments "HTMLFunctionDatabase.add_function"
      (functionParameters.drop given.length))

/-- Runs an operation and reports its failure after a given text. -/
def reportingFault (text : String) (act : Action Unit) : Action Unit := do
  match ← attempt act with
  | .ok _ => return ()
  | .error e => say (text ++ e.message)

def openStore : Action Store := do
  Store.standard.tryConnection
  return Store.standard

/-! ## Filling the table -/

/-- Adds functions, each given as one record, and counts those that were added. -/
def insertNamed (store : Store) : List NamedFunction → Action Nat
  | [] => pure 0
  | f :: rest => do
    let added ← store.addGiven [f.toValue]
    say ((if added then "   ✅ Added: " else "   ❌ Failed: ") ++ f.name)
    let others ← insertNamed store rest
    return (if added then others + 1 else others)

def listedLine (f : ListedFunction) : String :=
  "   - " ++ f.name.display ++ " (ID: " ++ f.functionId.display ++ ")"

def sayInserted (added total : Nat) : Action Unit :=
  say ("\n✅ Successfully inserted " ++ Text.ofNat added ++ "/" ++ Text.ofNat total ++ " functions")

def insertSamples : Action Unit :=
  reportingFault "❌ Error inserting sample data: " do
    let store ← openStore
    say "🔄 Inserting sample HTML functions..."
    let added ← insertNamed store sampleFunctions
    sayInserted added sampleFunctions.length
    let found ← store.all
    say ("\n📊 Total functions in database: " ++ Text.ofNat found.length)
    sayAll (found.map listedLine)

def recreateFunctions : Action Unit :=
  reportingFault "❌ Error recreating data: " do
    let store ← openStore
    say "🗑️ Clearing existing HTML functions..."
    let t ← orFail (← Store.connect).delete
    Store.commit t
    Store.close t
    say "✅ Cleared existing data"
    say ("🔄 Inserting " ++ Text.ofNat projectFunctions.length ++ " realistic HTML functions...")
    let added ← insertNamed store projectFunctions
    sayInserted added projectFunctions.length
    let found ← store.all
    say ("\n📊 Total functions in database: " ++ Text.ofNat found.length)
    say "\n🎯 HTML Functions → Java Mapping Preview:"
    sayAll ((found.take 10).map listedLine)

def setUpShop : Action Unit :=
  reportingFault "❌ Error: " do
    let store ← openStore
    say "🧹 Clearing existing HTML functions..."
    store.clear
    let count := Text.ofNat shopFunctions.length
    say ("📝 Adding " ++ count ++ " HTML functions to database...")
    shopFunctions.forM (fun f => do
      let _ ← store.add (.str f.name) (.str f.description)
      say ("  ✅ Added: " ++ f.name))
    say "\n🔗 Setting up HTML→Java controller mappings..."
    sayAll (shopControllers.map (fun c => "  🔗 Mapped: " ++ c.1 ++ " → " ++ c.2))
    say ("\n✅ Successfully added " ++ count ++ " HTML functions!")
    say ("🔗 Successfully mapped " ++ Text.ofNat shopControllers.length
      ++ " HTML→Java relationships!")
    let found ← store.all
    say ("\n📊 Database now contains " ++ Text.ofNat found.length ++ " HTML functions:")
    sayAll ((found.take 5).map (fun f => "  - " ++ f.name.display ++ " (ID: " ++ f.id ++ ")"))
    if 5 < found.length then
      say ("  ... và " ++ Text.ofNat (found.length - 5) ++ " functions khác")

/-! ## Columns -/

def withControllerColumn (t : FunctionTable) : Action FunctionTable := do
  match t.addColumn "controller" with
  | .ok t =>
    say "✅ Added controller column"
    return t
  | .error e =>
    if Text.within "already exists" e.message then say "ℹ️ Controller column already exists"
    else say ("❌ Error adding controller column: " ++ e.message)
    return t

def addControllerColumn : Action Unit :=
  reportingFault "❌ Error updating schema: " do
    let t ← Store.connect
    say "🔧 Updating database schema..."
    let t ← withControllerColumn t
    let t ← orFail t.delete
    say "🧹 Cleared existing HTML functions"
    Store.commit t
    Store.close t
    say "✅ Database schema updated successfully"

def linkedColumns : List String := ["function_id", "function_name", "controller"]

def insertLinkedRow (t : FunctionTable) (f : LinkedFunction) : Action FunctionTable := do
  let t ← orFail (t.insert linkedColumns ⟨.int f.id, .str f.name, .str f.controller, .null⟩)
  say ("  ✅ Added: " ++ f.name ++ " → " ++ f.controller)
  return t

def insertLinked : Action Unit :=
  reportingFault "❌ Error: " do
    let t ← Store.connect
    let count := Text.ofNat linkedFunctions.length
    say ("📝 Adding " ++ count ++ " HTML functions with controller mapping...")
    let t ← linkedFunctions.foldlM insertLinkedRow t
    Store.commit t
    Store.close t
    say ("✅ Successfully added " ++ count ++ " HTML functions!")
    let t ← Store.connect
    orFail (t.require linkedColumns)
    let rows := t.sortedById
    say ("\n📊 Database now contains " ++ Text.ofNat rows.length ++ " HTML functions:")
    sayAll (rows.map (fun r =>
      "  " ++ r.id.display ++ ". " ++ r.name.display ++ " → " ++ r.controller.display))
    Store.close t

def showColumns : Action Unit :=
  reportingFault "Error: " do
    let t ← Store.connect
    say "HTML Function Table Columns:"
    sayAll (t.columns.map (fun c => "  - " ++ c ++ " (" ++ t.engine.columnType c ++ ")"))
    say "\nHTML Tables: ['html_function']"
    Store.close t

end JavaDeps
