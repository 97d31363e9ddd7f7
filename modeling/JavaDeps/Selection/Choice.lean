import JavaDeps.Value.Basic

/-!
# Choices

A selection is a list of ids. Ids of classes, of calls and of page functions start with different
marks; other ids choose nothing.

The file defines:
- `Choice`, what a selection chooses;
- `Choice.ofIds`, which reads the ids.
-/

namespace JavaDeps

/-- What a selection chooses: classes, calls and page functions. -/
structure Choice where
  classes : NameSet := SortedSet.empty
  calls : NameSet := SortedSet.empty
  pages : List String := []

namespace Choice

def classMark : String := "class_"

def callMark : String := "method_"

def pageMark : String := "html_"

/-- The call that an id chooses. It names a method, a source and a target, divided by
underscores. -/
def callOf? (id : String) : Option String :=
  match Text.splitAtMost id '_' 3 with
  | [_, method, source, target] => some (method ++ "_" ++ source ++ "_" ++ target)
  | _ => none

def addId (c : Choice) (id : String) : Choice :=
  if Text.starts id classMark then
    { c with classes := c.classes.insert (Text.dropChars id classMark.length) }
  else if Text.starts id callMark then
    match callOf? id with
    | some call => { c with calls := c.calls.insert call }
    | none => c
  else if Text.starts id pageMark then { c with pages := c.pages ++ [id] }
  else c

def ofIds (ids : List String) : Choice := ids.foldl addId {}

end Choice

def idTexts (ids : Value) : Except Fault (List String) := do
  (← ids.elements).mapM (Value.textFor "startswith")

end JavaDeps
