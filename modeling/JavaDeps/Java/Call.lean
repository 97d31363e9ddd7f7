import JavaDeps.Java.Name

/-!
# Calls

Method calls and object creations in cleaned source text.

The file defines:
- `memberCalls`, calls `receiver.method(`;
- `serviceCalls`, calls on a variable whose name ends in `Service` or `Repository`;
- `creations`, the types of `new` expressions;
- `serviceType`, the type that a service variable is named after.
-/

namespace JavaDeps.Java

def memberCall : Pattern :=
  .group 1 (.alt typeName memberName) ++ .char '.' ++ .group 2 memberName ++ openParen

def memberCalls (text : List Char) : List (String × String) := memberCall.captures2 text

def nameEndingWith (ending : String) : Pattern :=
  .one isSmall ++ .many isNameChar ++ .literal ending

def serviceCall : Pattern :=
  .group 1 (.alt (nameEndingWith "Service") (nameEndingWith "Repository"))
    ++ .char '.' ++ .group 2 memberName ++ openParen

/-- The calls of a text on service or repository variables: variable and method. -/
def serviceCalls (text : List Char) : List (String × String) := serviceCall.captures2 text

def creation : Pattern := .literal "new" ++ .blanks1 ++ .group 1 typeName ++ openParen

def creations (text : List Char) : List String := creation.captures1 text

def capitalize : List Char → List Char
  | [] => []
  | c :: rest => (if isSmall c then Char.ofNat (c.toNat - 32) else c) :: rest

/-- The type that a service variable is named after: its name with a capital first letter. -/
def serviceType (variableName : String) : String := String.ofList (capitalize variableName.toList)

end JavaDeps.Java
