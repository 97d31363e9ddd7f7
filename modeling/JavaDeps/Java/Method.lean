import JavaDeps.Java.Call
import JavaDeps.Java.Field
import JavaDeps.Pattern.Parse
import JavaDeps.SortedSet

/-!
# Methods and what they depend on

The body of a method is found by its name, which is read as a written pattern. A dependency of a
method is a text `name#use`.

The file defines:
- `methodBody`, the body of the first method that fits a name;
- `variableType` and `fieldTypeOf?`, the types of names, read as patterns as well;
- `methodDependencies`, the dependencies of a method.
-/

namespace JavaDeps.Java

/-- Why the dependencies of a method cannot be given: its name is no pattern, or the pattern fits
without marking a body. -/
inductive MethodError where
  | pattern (error : PatternError)
  | noBody
  deriving DecidableEq, Repr

/-- The written pattern of a body: up to the first closing brace, with pairs of braces inside it
where they are needed. -/
def writtenBody : String :=
  "\\\x7b([^\x7d]*(?:\\\x7b[^\x7d]*\\\x7d[^\x7d]*)*)\\\x7d"

def writtenMethod (name : String) : String :=
  "(?:@Override\\s+)?(?:public|private|protected)?\\s+[\\w<>\\[\\],\\s]+\\s+" ++ name
    ++ "\\s*\\([^\x7b]*\\)\\s*(?:throws[^\x7b]*)?\\s*" ++ writtenBody

/-- The written pattern of a name with a parameter list and a body. -/
def writtenPlainMethod (name : String) : String :=
  name ++ "\\s*\\([^\x7b]*\\)\\s*" ++ writtenBody

def search (switches : Pattern.Switches) (written : String) (text : List Char) :
    Except PatternError (Option Cursor) := do
  let pattern ← Pattern.parse switches written
  match pattern.find? text with
  | none => return none
  | some found =>
    if found.stop.marks.anyReversed then throw .reversedGroup else return some found.stop

def findMethod (name : String) (text : List Char) : Except PatternError (Option Cursor) := do
  match ← search [.dotAll] (writtenMethod name) text with
  | some found => return some found
  | none => search [.dotAll] (writtenPlainMethod name) text

def methodBody (name : String) (text : List Char) : Except MethodError (Option (List Char)) :=
  match findMethod name text with
  | .error e => .error (.pattern e)
  | .ok none => .ok none
  | .ok (some found) => match found.capture? 1 with
    | some body => .ok (some body)
    | none => .error .noBody

/-! ## Types of names -/

def writtenVariable (name : String) : String := "([A-Z][a-zA-Z0-9_]*)\\s+" ++ name ++ "\\s*="

/-- The written pattern of a variable that is assigned the result of a getter. -/
def writtenGetter (name : String) : String :=
  name ++ "\\s*=\\s*([a-zA-Z_][a-zA-Z0-9_]*)\\.get([A-Z][a-zA-Z0-9_]*)\\s*\\("

/-- The type of a variable in a method body: from its declaration, or else from the name of the
getter whose result is assigned to it. -/
def variableType (body : List Char) (name : String) : Except PatternError (Option String) := do
  match ← search [] (writtenVariable name) body with
  | some found => return found.group? 1
  | none =>
    match ← search [] (writtenGetter name) body with
    | some found => return found.group? 2
    | none => return none

/-- The type with which a source text declares a field or a constructor parameter. A name that is
no pattern has no type. -/
def fieldTypeOf? (text : List Char) (name : String) : Option String :=
  let field :=
    "(?:private|protected|public)?\\s+([A-Z][a-zA-Z0-9_]*(?:<[^>]+>)?)\\s+" ++ name ++ "\\s*[;=]"
  match search [] field text with
  | .error _ => none
  | .ok (some found) => (found.group? 1).map (fun type => Text.firstPart type '<')
  | .ok none => match search [] ("([A-Z][a-zA-Z0-9_]*)\\s+" ++ name ++ "[,)]") text with
    | .ok (some found) => found.group? 1
    | _ => none

/-! ## Dependencies of a method -/

def repositoryCall : Pattern :=
  .group 1 (.one isSmall ++ .many isNameChar ++ .alt (.literal "Repository") (.literal "Service"))
    ++ .char '.' ++ .group 2 memberName ++ openParen

def staticCall : Pattern :=
  .group 1 typeName ++ .char '.'
    ++ .group 2 (.one Text.isAsciiLetter ++ .many isNameChar) ++ openParen

def thrownCreation : Pattern :=
  .literal "throw" ++ .blanks1 ++ .literal "new" ++ .blanks1
    ++ .group 1 (typeName ++ .literal "Exception" ++ .many isNameChar) ++ openParen

def typeMember : Pattern :=
  .group 1 typeName ++ .char '.' ++ .group 2 typeName ++ .blanks ++ .ahead false (.char '(')

def variableCall : Pattern :=
  .group 1 memberName ++ .char '.' ++ .group 2 memberName ++ openParen

def callText (call : String × String) : String := call.1 ++ "." ++ call.2 ++ "()"

def libraryTypes : List String := ["System", "Math", "String", "Objects", "Collections", "Arrays"]

/-- Whether a static call is a dependency, given the calls recorded so far. -/
def countsAsStatic (recorded : List String) (call : String × String) : Bool :=
  !recorded.contains (callText call)
    && !libraryTypes.contains call.1
    && !Text.ends call.1 "Repository" && !Text.ends call.1 "Service"
    && !recorded.any (fun r => Text.starts (Text.lower (callText call)) (Text.lower r))

/-- Records the static calls that are dependencies, one after the other. Gives all recorded calls
and the dependencies. -/
def recordStatic (recorded : List String) : List (String × String) → List String × List String
  | [] => (recorded, [])
  | call :: rest =>
    if countsAsStatic recorded call then
      let (recorded, deps) := recordStatic (recorded ++ [callText call]) rest
      (recorded, (call.1 ++ "#static_" ++ call.2) :: deps)
    else recordStatic recorded rest

/-- The dependencies by calls on variables that are not recorded yet and have a known type. -/
def variableDependencies (body : List Char) (recorded : List String) :
    List (String × String) → Except PatternError (List String)
  | [] => .ok []
  | call :: rest => do
    let found ← if recorded.contains (callText call) then pure none else variableType body call.1
    let others ← variableDependencies body recorded rest
    match found with
    | some type =>
      return if type.isEmpty then others else (type ++ "#method_" ++ call.2) :: others
    | none => return others

/-- The dependencies in the body of a method. `fieldType?` gives the type of a field. -/
def bodyDependencies (fieldType? : String → Option String) (body : List Char) :
    Except PatternError NameSet := do
  let repositoryCalls := repositoryCall.captures2 body
  let owner (name : String) : String := match fieldType? name with
    | some type => if type.isEmpty then name else type
    | none => name
  let byRepository := repositoryCalls.map (fun call => owner call.1 ++ "#" ++ call.2)
  let byCreation := (creations body).map (· ++ "#constructor")
  let (recorded, byStatic) :=
    recordStatic (repositoryCalls.map callText) (staticCall.captures2 body)
  let byThrow := (thrownCreation.captures1 body).map (· ++ "#exception")
  let byMember := (typeMember.captures2 body).map (fun m => m.1 ++ "#enum_" ++ m.2)
  let byVariable ← variableDependencies body recorded (variableCall.captures2 body)
  return SortedSet.ofList
    (byRepository ++ byCreation ++ byStatic ++ byThrow ++ byMember ++ byVariable)

def methodDependencies (fieldType? : String → Option String) (text : List Char) (name : String) :
    Except MethodError NameSet :=
  match methodBody name text with
  | .error e => .error e
  | .ok none => .ok SortedSet.empty
  | .ok (some body) => match bodyDependencies fieldType? body with
    | .ok deps => .ok deps
    | .error e => .error (.pattern e)

end JavaDeps.Java
