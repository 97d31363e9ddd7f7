import JavaDeps.Text.Basic

/-!
# Statements of a drawing

A drawing is written in the language of the drawing tool: statements for nodes and edges between an
opening and a closing line. A name may hold a line feed, so that a statement can take several lines.
-/

namespace JavaDeps.Dot

/-- A node with its label, its colour and, unless it has the usual one, its shape. -/
structure NodeStatement where
  name : String
  label : String
  color : String
  shape? : Option String := none
  deriving DecidableEq, Repr

/-- An edge with its label and its further attributes. -/
structure EdgeStatement where
  source : String
  target : String
  label : String
  style : String := ""
  deriving DecidableEq, Repr

/-- A statement of a drawing. -/
inductive Statement where
  /-- A line that is written as it stands. -/
  | line (text : String)
  | node (n : NodeStatement)
  | edge (e : EdgeStatement)
  deriving DecidableEq, Repr

def inQuotes (s : String) : String := "\"" ++ s ++ "\""

def remark (text : String) : Statement := .line ("    // " ++ text)

def gap : Statement := .line ""

def NodeStatement.text (n : NodeStatement) : String :=
  "    " ++ inQuotes n.name ++ " [label=" ++ inQuotes n.label
    ++ ", URL=" ++ inQuotes ("javascript:showNodeInfo('" ++ n.name ++ "')")
    ++ ", fillcolor=" ++ inQuotes n.color
    ++ (match n.shape? with
      | some shape => ", shape=" ++ inQuotes shape
      | none => "")
    ++ "];"

def EdgeStatement.text (e : EdgeStatement) : String :=
  "    " ++ inQuotes e.source ++ " -> " ++ inQuotes e.target ++ " [label=" ++ inQuotes e.label
    ++ ", URL=" ++ inQuotes ("javascript:showEdgeInfo('" ++ e.source ++ "', '" ++ e.target ++ "')")
    ++ e.style ++ "];"

def Statement.text : Statement → String
  | .line text => text
  | .node n => n.text
  | .edge e => e.text

def linesOf (statements : List Statement) : List String :=
  statements.flatMap (fun s => Text.split s.text '\n')

def closing : String := "\x7d"

def isClosing (line : String) : Bool := Text.strip line == closing

/-- The place of the last closing line, or the start when there is none. -/
def closingPlace (lines : List String) : Nat :=
  let after := (lines.reverse.takeWhile (fun line => !isClosing line)).length
  lines.length - 1 - after

def insertBeforeClosing (lines block : List String) : List String :=
  let place := closingPlace lines
  lines.take place ++ block ++ lines.drop place

def draws (lines : List String) (name : String) : Bool :=
  lines.any (fun line => Text.within (inQuotes name) line && Text.within "[label=" line)

end JavaDeps.Dot
