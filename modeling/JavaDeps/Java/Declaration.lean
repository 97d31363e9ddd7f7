import JavaDeps.Java.Name

/-!
# Declarations

Packages, imports, types and `implements` clauses, found in the source text as it is, comments
included.

The file defines:
- `packageName?`, the package of a file;
- `declaredTypes` and `declaredInterfaces`, the names it declares;
- `importedNames`, the simple names it imports, those of the standard library left out;
- `implementsClauses`, the classes with the list of what they implement.
-/

namespace JavaDeps.Java

def packageClause : Pattern :=
  .literal "package" ++ .blanks1
    ++ .group 1 (.one isNameStart ++ .many (fun c => isNameChar c || c == '.'))
    ++ .blanks ++ .char ';'

def packageName? (text : List Char) : Option String := packageClause.firstCapture? text

def publicModifier : Pattern := .optional (.literal "public" ++ .blanks1)

/-- The declaration of a class, an interface or an enumeration. -/
def typeDeclaration : Pattern :=
  publicModifier ++ .oneOf [.literal "class", .literal "interface", .literal "enum"]
    ++ .blanks1 ++ .group 1 typeName

def declaredTypes (text : List Char) : List String := typeDeclaration.captures1 text

def interfaceDeclaration : Pattern :=
  publicModifier ++ .literal "interface" ++ .blanks1 ++ .group 1 typeName

def declaredInterfaces (text : List Char) : List String := interfaceDeclaration.captures1 text

def importClause : Pattern :=
  .literal "import" ++ .blanks1
    ++ .group 1 (.one isNameStart ++ .many (fun c => isNameChar c || c == '.' || c == '*'))
    ++ .blanks ++ .char ';'

/-- The last parts of the imported names. Names of the standard library are left out. -/
def importedNames (text : List Char) : List String :=
  ((importClause.captures1 text).filter (fun name => !Text.starts name "java.")).map
    (fun name => Text.lastPart name '.')

def implementsClause : Pattern :=
  .literal "class" ++ .blanks1 ++ .group 1 typeName ++ .blanks1
    ++ .optional (.literal "extends" ++ .blanks1 ++ typeName ++ .blanks1)
    ++ .literal "implements" ++ .blanks1 ++ .group 2 (.many1 (· != '\x7b'))

/-- The classes of a file that implement something, each with the names it lists. -/
def implementsClauses (text : List Char) : List (String × List String) :=
  (implementsClause.captures2 text).map
    (fun found => (found.1, (Text.split found.2 ',').map Text.strip))

end JavaDeps.Java
