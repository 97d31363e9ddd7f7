import JavaDeps.Cli.Options

/-!
# The help text

The help text lists what a command line can hold. Its lines are filled with words up to a fixed
width, and the explanations stand in a column of their own.
-/

namespace JavaDeps.Cli

/-- A program: the usual one, or the one that reports what the deep analysis covers. -/
inductive Program where
  | usual
  | detailed
  deriving DecidableEq, Repr

/-! ## Layout -/

def lineWidth : Nat := 78

def helpColumn : Nat := 24

def blanks (n : Nat) : String := String.ofList (List.replicate n ' ')

def fillFrom (width : Nat) (line : String) : List String → List String
  | [] => [line]
  | word :: rest =>
    if line.length + 1 + word.length ≤ width then fillFrom width (line ++ " " ++ word) rest
    else line :: fillFrom width word rest

/-- Fills lines with words. A word that is wider than a line has a line of its own. -/
def fill (width : Nat) : List String → List String
  | [] => []
  | word :: rest => fillFrom width word rest

/-- Lines after a lead. They start in a given column, the first one right after the lead. -/
def hang (column : Nat) (lead : String) : List String → List String
  | [] => [lead]
  | line :: rest =>
    (lead ++ blanks (column - lead.length) ++ line) :: rest.map (fun l => blanks column ++ l)

/-- An entry with its explanation. A wide entry has a line of its own. -/
def explained (entry help : String) : List String :=
  let lines := fill (lineWidth - helpColumn) (Text.split help ' ')
  let lead := "  " ++ entry
  if lead.length + 2 ≤ helpColumn then hang helpColumn lead lines
  else lead :: lines.map (fun l => blanks helpColumn ++ l)

/-! ## Texts -/

namespace Program

def fileName : Program → String
  | usual => "main.py"
  | detailed => "enhanced_main.py"

def drawing : Program → String
  | usual => "dependencies.dot"
  | detailed => "enhanced_dependencies.dot"

def description : Program → String
  | usual =>
    "Enhanced Java Dependency Graph Generator with Interactive HTML Map and Graph Editing"
  | detailed => "Enhanced Java Dependency Graph Generator with Advanced Analysis"

/-- The usage lines: the flags, and then the source on a line of its own. -/
def usage (p : Program) : List String :=
  let lead := "usage: " ++ p.fileName ++ " "
  let flags := ["[-h]", "[--output OUTPUT]", "[--web]", "[--port PORT]", "[--direct]"]
  hang lead.length lead (fill (lineWidth - lead.length) flags ++ ["source_dir"])

def help (p : Program) : List String :=
  p.usage ++ [""] ++ fill lineWidth (Text.split p.description ' ')
    ++ ["", "positional arguments:"]
    ++ explained "source_dir" "Đường dẫn đến thư mục source Java"
    ++ ["", "options:"]
    ++ explained "-h, --help" "show this help message and exit"
    ++ explained "--output OUTPUT, -o OUTPUT"
      ("Tên file output DOT (mặc định: " ++ p.drawing ++ ")")
    ++ explained "--web, -w" "Tự động mở web interface sau khi generate"
    ++ explained "--port PORT, -p PORT" "Port cho web server (mặc định: 8000)"
    ++ explained "--direct, -d" "Tạo graph trực tiếp mà không qua màn hình lựa chọn"

end Program

end JavaDeps.Cli
