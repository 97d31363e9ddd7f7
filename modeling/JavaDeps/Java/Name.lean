import JavaDeps.Pattern.Match

/-!
# Names in Java source

The spellings of names that the recognisers look for: type names start with a capital letter,
members and variables with a small one, and all go on with ASCII letters, digits and underscores.
-/

namespace JavaDeps.Java

def isCapital (c : Char) : Bool := 65 ≤ c.toNat && c.toNat ≤ 90

def isSmall (c : Char) : Bool := 97 ≤ c.toNat && c.toNat ≤ 122

def isNameStart (c : Char) : Bool := Text.isAsciiLetter c || c == '_'

def isNameChar (c : Char) : Bool := Text.isAsciiLetter c || Text.isAsciiDigit c || c == '_'

def typeName : Pattern := .one isCapital ++ .many isNameChar

def memberName : Pattern := .one isSmall ++ .many isNameChar

def anyName : Pattern := .one isNameStart ++ .many isNameChar

/-- The name of a constant: capital letters, digits and underscores. -/
def constantName : Pattern :=
  .one (fun c => isCapital c || c == '_')
    ++ .many (fun c => isCapital c || Text.isAsciiDigit c || c == '_')

def openParen : Pattern := .blanks ++ .char '('

def arguments : Pattern := openParen ++ .many (· != ')') ++ .char ')'

end JavaDeps.Java
