import JavaDeps.Graph.Edit
import JavaDeps.Proofs.Analysis.Plain
import JavaDeps.Proofs.Dot.Statements
import JavaDeps.Proofs.Text

/-!
# Blocks of a drawing

The deeper readings of a project draw the same graph and add a block of lines each. A block is put
before the last line that is a closing brace. Names and labels are written without any escape, so a
line of a name can be a closing brace as well; yet the last such line is always the one that closes
the drawing.
-/

namespace JavaDeps

/-! ## Lines of a text -/

namespace Dot

/-- Every statement is drawn on a line of its own. -/
theorem newline_not_mem_linesOf {statements : List Statement} :
    ∀ line ∈ linesOf statements, '\n' ∉ line.toList := by
  intro line hline
  rcases List.mem_flatMap.1 hline with ⟨statement, -, hline⟩
  exact Text.not_mem_of_mem_split hline

theorem linesOf_close (drawn : List Statement) :
    linesOf (close drawn) = linesOf drawn ++ [closing] := by
  rw [close, linesOf_append, linesOf_closing]

/-- A name with line feeds takes several lines from the start, so joining the lines and splitting
the text again gives no others. -/
theorem split_join_linesOf (drawn : List Statement) :
    Text.split (Text.join "\n" (linesOf (close drawn))) '\n' = linesOf (close drawn) := by
  apply Text.split_join (by decide)
  · simp [linesOf_close]
  · exact newline_not_mem_linesOf

end Dot

/-! ## The drawing at each depth -/

namespace Project

variable {p : Project}

/-- The lines of a drawing are those of its graph, then those of the blocks, then the closing line.
-/
theorem dotText_of_blocks {drawn added : List Dot.Statement}
    (hdrawn : p.graph.openStatements = .ok drawn)
    (hadded : p.blocks (Dot.linesOf (Dot.close drawn)) = .ok added) :
    ∃ text, p.dotText = .ok text ∧
      Text.split text '\n' = Dot.linesOf drawn ++ Dot.linesOf added ++ [Dot.closing] := by
  have hlines : p.dotLines = .ok (Dot.linesOf (Dot.close (drawn ++ added))) := by
    rw [dotLines_eq, statements, hdrawn]
    simp only [bind, Except.bind, hadded]
    rfl
  refine ⟨_, by rw [dotText, hlines]; rfl, ?_⟩
  rw [Dot.split_join_linesOf, Dot.linesOf_close, Dot.linesOf_append]

/-- A drawing of a project consists of that of its graph and of the blocks. -/
theorem exists_blocks_of_dotText {text : String} (h : p.dotText = .ok text) :
    ∃ drawn added, p.graph.openStatements = .ok drawn ∧
      p.blocks (Dot.linesOf (Dot.close drawn)) = .ok added := by
  rcases bind_eq_ok h with ⟨lines, hlines, -⟩
  rw [dotLines_eq] at hlines
  cases hstatements : p.statements with
  | error e =>
    rw [hstatements] at hlines
    cases hlines
  | ok statements =>
    rcases bind_eq_ok hstatements with ⟨drawn, hdrawn, hstatements⟩
    rcases bind_eq_ok hstatements with ⟨added, hadded, -⟩
    exact ⟨drawn, added, hdrawn, hadded⟩

end Project

/-- A project with page functions that can be drawn can be drawn at each depth. The lines of the
drawing are those of the graph without the last one, then the lines that the implementations add,
then the lines that the page functions add, and last a closing brace. Without page functions nothing
is added for them. -/
theorem dotText_lines {p : Project} {text : String} (hdepth : p.depth = .paged)
    (hdraw : p.dotText = .ok text) :
    ∃ plain deep front implementations pages,
      { p with depth := .plain }.dotText = .ok plain ∧
      { p with depth := .deep }.dotText = .ok deep ∧
      Text.split plain '\n' = front ++ [Dot.closing] ∧
      Text.split deep '\n' = front ++ implementations ++ [Dot.closing] ∧
      Text.split text '\n' = front ++ implementations ++ pages ++ [Dot.closing] ∧
      implementations = Dot.linesOf (p.facts.implementationStatements (Text.split plain '\n')) ∧
      (p.pages.statements (Text.split deep '\n')).map Dot.linesOf = .ok pages ∧
      (p.pages.functions = [] → pages = []) := by
  rcases Project.exists_blocks_of_dotText hdraw with ⟨drawn, added, hdrawn, hadded⟩
  rcases Project.dotText_of_blocks hdrawn hadded with ⟨text', htext', hlines⟩
  rw [hdraw] at htext'
  cases htext'
  simp only [Project.blocks, hdepth] at hadded
  rcases bind_eq_ok hadded with ⟨block, hblock, hadded⟩
  cases hadded
  -- The two smaller drawings are those of the same statements with fewer blocks.
  rcases @Project.dotText_of_blocks { p with depth := .plain } drawn [] hdrawn rfl with
    ⟨plain, hplain, hplainLines⟩
  rcases @Project.dotText_of_blocks { p with depth := .deep } drawn
    (p.facts.implementationStatements (Dot.linesOf (Dot.close drawn))) hdrawn rfl with
    ⟨deep, hdeep, hdeepLines⟩
  have hplainEq : Text.split plain '\n' = Dot.linesOf (Dot.close drawn) := by
    rw [hplainLines, Dot.linesOf_close]
    simp [Dot.linesOf]
  have hdeepEq : Text.split deep '\n' = p.facts.drawInto (Dot.linesOf (Dot.close drawn)) := by
    rw [hdeepLines, Facts.drawInto, Dot.linesOf_close, Dot.insertBeforeClosing_append]
  refine ⟨plain, deep, Dot.linesOf drawn, _, Dot.linesOf block, hplain, hdeep, ?_, hdeepLines, ?_,
    ?_, ?_, ?_⟩
  · rw [hplainEq, Dot.linesOf_close]
  · rw [hlines, Dot.linesOf_append]
    simp only [List.append_assoc]
  · rw [hplainEq]
  · rw [hdeepEq, hblock]
    rfl
  · intro hnone
    rw [PageLinks.statements_of_functions_nil hnone] at hblock
    cases hblock
    rfl

def bracedName : String := "top\n\x7d\nend"

def bracedProject : Project :=
  { Project.fresh .paged true (SourcePath.ofText ".") with
    graph := ((Graph.ofRoot (SourcePath.ofText ".")).addNode (.str bracedName) .null (.str "red")).2
    pages := { functions := [⟨"html_1", .int 1, .str bracedName, .null, "", ""⟩] } }

/-- The blocks of such a project are drawn behind the closing braces of its names. -/
theorem bracedProject_lines :
    Dot.closing ∈ Text.split bracedName '\n' ∧
    ∃ text plain front implementations pages, bracedProject.dotText = .ok text ∧
      { bracedProject with depth := .plain }.dotText = .ok plain ∧
      Text.split plain '\n' = front ++ [Dot.closing] ∧
      Text.split text '\n' = front ++ implementations ++ pages ++ [Dot.closing] := by
  have hdraw : bracedProject.dotText.toOption.any (fun _ => true) = true := by decide +kernel
  rcases exists_of_toOption_any hdraw with ⟨text, htext, -⟩
  rcases dotText_lines rfl htext with
    ⟨plain, deep, front, implementations, pages, hplain, -, hfront, -, hlines, -⟩
  exact ⟨by decide, text, plain, front, implementations, pages, htext, hplain, hfront, hlines⟩

end JavaDeps
