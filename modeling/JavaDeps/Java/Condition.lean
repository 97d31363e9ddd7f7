import JavaDeps.Java.Name

/-!
# Conditions and chains

Calls inside conditions, constants that are compared with, switched variables and chained calls,
found in cleaned source text.

The file defines:
- `conditionCalls`, calls in an `if` condition or beside `||` and `&&`;
- `comparedConstants`, constants in comparisons and `case` labels;
- `switchedVariables`, the variables of `switch` statements;
- `chainedCalls` and `streamedVariables`, chains of calls.
-/

namespace JavaDeps.Java

/-- A call: receiver in group 1, method in group 2, with its arguments. -/
def anyCall : Pattern := .group 1 anyName ++ .char '.' ++ .group 2 anyName ++ arguments

def equalsSign : Pattern := .blanks ++ .literal "=="

def conditionCallPatterns : List Pattern :=
  [.literal "if" ++ openParen ++ .few (· != ')') ++ anyCall,
   .literal "if" ++ openParen ++ .blanks ++ anyCall ++ equalsSign,
   .literal "||" ++ .blanks ++ anyCall ++ equalsSign,
   .literal "&&" ++ .blanks ++ anyCall ++ equalsSign]

def conditionCalls (text : List Char) : List (String × String) :=
  conditionCallPatterns.flatMap (fun p => p.captures2 text)

/-- A constant of a type, or of a type inside it, after a comparison sign. -/
def comparedConstant (sign : String) : Pattern :=
  .literal sign ++ .blanks ++ .group 1 typeName ++ .char '.'
    ++ .optional (.group 2 (typeName ++ .char '.')) ++ .group 3 constantName

def caseConstant : Pattern :=
  .literal "case" ++ .blanks1 ++ .group 1 typeName ++ .char '.' ++ .group 2 constantName
    ++ .blanks ++ .char ':'

/-- The type and the constant of a comparison; the inner type counts when there is one. -/
def comparedConstantsWith (sign : String) (text : List Char) : List (String × String) :=
  ((comparedConstant sign).findAll text).map fun found =>
    let inner := found.stop.group 2
    let type :=
      if inner.isEmpty then found.stop.group 1
      else String.ofList (Text.dropEndWhile (· == '.') inner.toList)
    (type, found.stop.group 3)

/-- The constants that a text compares with: type and constant. -/
def comparedConstants (text : List Char) : List (String × String) :=
  comparedConstantsWith "==" text ++ comparedConstantsWith "!=" text ++ caseConstant.captures2 text

def switchStatement : Pattern :=
  .literal "switch" ++ openParen ++ .blanks ++ .group 1 anyName ++ .blanks ++ .char ')'

def switchedVariables (text : List Char) : List String := switchStatement.captures1 text

/-- A receiver with at least two calls after it. Group 2 is the method of the last call. -/
def callChain : Pattern :=
  .group 1 anyName ++ .rep (.char '.' ++ .group 2 anyName ++ arguments) 2 none .greedy

/-- The chains of a text: receiver and the method of the last call. -/
def chainedCalls (text : List Char) : List (String × String) := callChain.captures2 text

def streamOperation : Pattern :=
  .group 1 anyName ++ .char '.' ++ .oneOf [.literal "stream", .literal "parallelStream"]
    ++ .literal "()."
    ++ .oneOf [.literal "map", .literal "filter", .literal "collect", .literal "forEach"]

def streamedVariables (text : List Char) : List String := streamOperation.captures1 text

end JavaDeps.Java
