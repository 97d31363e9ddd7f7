import JavaDeps.Java.Name

/-!
# Fields and typed variables

Declarations of fields, parameters and local variables in source text, each with its type.

The file defines:
- `typedNames`, the declared names with their types, by kind of declaration;
- `bareType`, a type without its type arguments;
- `nestedTypes`, the uses of a type inside another one;
- `injectedFields`, the fields that a container fills in;
- `localTypeOf?` and `fieldTypeOf?`, the type of one name.
-/

namespace JavaDeps.Java

def accessModifier : Pattern :=
  .optional (.oneOf [.literal "private", .literal "protected", .literal "public"])

def typeArguments : Pattern := .char '<' ++ .many1 (· != '>') ++ .char '>'

def declarationEnd : Pattern := .one (fun c => c == ';' || c == '=')

def fieldDeclaration : Pattern :=
  .optional (.char '@' ++ .many1 Text.isWordChar ++ .blanks1) ++ accessModifier ++ .blanks1
    ++ .group 1 (typeName ++ .optional typeArguments) ++ .blanks1 ++ .group 2 memberName
    ++ .blanks ++ declarationEnd

/-- A parameter, or another typed name before a comma or a closing parenthesis. -/
def parameterDeclaration : Pattern :=
  .group 1 typeName ++ .blanks1 ++ .group 2 memberName ++ .blanks
    ++ .one (fun c => c == ',' || c == ')')

def localDeclaration : Pattern :=
  .group 1 typeName ++ .blanks1 ++ .group 2 memberName ++ .blanks ++ .char '='

def closesOnLine : List Char → Bool
  | [] => false
  | c :: rest => c == '>' || (c != '\n' && closesOnLine rest)

/-- Drops type arguments that stand on one line. The flag tells whether the text starts inside
type arguments. -/
def dropTypeArguments : Bool → List Char → List Char
  | _, [] => []
  | true, c :: rest =>
    if c == '>' then dropTypeArguments false rest else dropTypeArguments true rest
  | false, c :: rest =>
    if c == '<' && closesOnLine rest then dropTypeArguments true rest
    else c :: dropTypeArguments false rest

def bareType (type : String) : String := String.ofList (dropTypeArguments false type.toList)

/-- The declared names of a text with their bare types: first the fields, then the parameters, then
the local variables. -/
def typedNames (text : List Char) : List (String × String) :=
  ([fieldDeclaration, parameterDeclaration, localDeclaration].flatMap
    (fun p => p.captures2 text)).map (fun found => (bareType found.1, found.2))

def nestedType : Pattern := .group 1 typeName ++ .char '.' ++ .group 2 typeName ++ .blanks1

/-- The uses of a type inside another one: outer and inner name. -/
def nestedTypes (text : List Char) : List (String × String) := nestedType.captures2 text

def injectedField : Pattern :=
  .literal "@Autowired" ++ .few (· != ';') ++ .group 1 typeName ++ .blanks1 ++ .group 2 memberName
    ++ .blanks ++ declarationEnd

def injectedFields (text : List Char) : List (String × String) := injectedField.captures2 text

/-- The type with which a text declares and initialises a name. -/
def localTypeOf? (text : List Char) (name : String) : Option String :=
  (Pattern.group 1 typeName ++ .blanks1 ++ .literal name ++ .blanks ++ .char '=').firstCapture? text

end JavaDeps.Java
