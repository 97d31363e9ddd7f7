/-!
# Source text without comments and string contents

Cleaning runs three passes over the text, each over the result of the one before: line comments go
first, then block comments, then the contents of string literals. No pass looks at what a later one
would see, so a comment mark inside a string literal counts as a comment.
-/

namespace JavaDeps.Java

/-- Drops everything from two slashes up to the end of the line. The flag tells whether the text
starts inside such a comment. -/
def dropLineComments : Bool → List Char → List Char
  | _, [] => []
  | true, c :: rest =>
    if c == '\n' then c :: dropLineComments false rest else dropLineComments true rest
  | false, c :: rest =>
    match c, rest with
    | '/', '/' :: _ => dropLineComments true rest
    | _, _ => c :: dropLineComments false rest

/-- Whether a star followed by a slash stands somewhere in the text. -/
def closesBlock : List Char → Bool
  | '*' :: '/' :: _ => true
  | _ :: rest => closesBlock rest
  | [] => false

/-- Where a text stands with respect to block comments: outside, right after the slash that opens a
comment, inside, or right after the star that closes it. -/
inductive BlockPlace where
  | outside
  | opening
  | inside
  | closing
  deriving DecidableEq, Repr

def dropBlockComments : BlockPlace → List Char → List Char
  | _, [] => []
  | .outside, c :: rest =>
    match c, rest with
    | '/', '*' :: body =>
      if closesBlock body then dropBlockComments .opening rest
      else c :: dropBlockComments .outside rest
    | _, _ => c :: dropBlockComments .outside rest
  | .opening, _ :: rest => dropBlockComments .inside rest
  | .inside, c :: rest =>
    match c, rest with
    | '*', '/' :: _ => dropBlockComments .closing rest
    | _, _ => dropBlockComments .inside rest
  | .closing, _ :: rest => dropBlockComments .outside rest

/-- Drops what stands between a double quote and the next one. The flag tells whether the text
starts between the two. A quote without a partner stays. -/
def emptyStrings : Bool → List Char → List Char
  | _, [] => []
  | true, c :: rest => if c == '"' then emptyStrings false rest else emptyStrings true rest
  | false, c :: rest =>
    if c == '"' && rest.contains '"' then '"' :: '"' :: emptyStrings true rest
    else c :: emptyStrings false rest

/-- The text without comments and without the contents of string literals. -/
def clean (text : List Char) : List Char :=
  emptyStrings false (dropBlockComments .outside (dropLineComments false text))

end JavaDeps.Java
