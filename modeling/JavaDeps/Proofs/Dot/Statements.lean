import JavaDeps.Dot.Project
import JavaDeps.Proofs.Except

/-!
# Drawings as statements

A drawing is put together as lines: the further blocks of a project are inserted into the lines of
its graph, before the last closing line. It is the same to put the statements together and to write
them all out at the end.
-/

namespace JavaDeps

/-! ## Inserting before the closing line -/

namespace Dot

theorem linesOf_append (first rest : List Statement) :
    linesOf (first ++ rest) = linesOf first ++ linesOf rest :=
  List.flatMap_append

theorem linesOf_closing : linesOf [.line closing] = [closing] := by decide

theorem closingPlace_append (lines : List String) :
    closingPlace (lines ++ [closing]) = lines.length := by
  have hclosing : isClosing closing = true := by decide
  simp [closingPlace, hclosing]

/-- A block goes before the closing line. -/
theorem insertBeforeClosing_append (lines block : List String) :
    insertBeforeClosing (lines ++ [closing]) block = lines ++ block ++ [closing] := by
  simp [insertBeforeClosing, closingPlace_append]

end Dot

def Graph.openStatements (g : Graph) : Except Fault (List Dot.Statement) := do
  let nodes ← g.nodeStatements
  let edges ← g.edgeStatements
  return Dot.opening ++ nodes.map .node ++ [Dot.gap, Dot.remark "Dependencies with method calls"]
    ++ edges.map .edge

def Dot.close (statements : List Dot.Statement) : List Dot.Statement :=
  statements ++ [.line Dot.closing]

theorem Graph.dotLines_eq (g : Graph) :
    g.dotLines = g.openStatements.map (fun drawn => Dot.linesOf (Dot.close drawn)) := by
  unfold dotLines statements openStatements
  cases g.nodeStatements with
  | error e => rfl
  | ok nodes =>
    cases g.edgeStatements with
    | error e => rfl
    | ok edges => rfl

theorem PageLinks.statements_of_functions_nil {pages : PageLinks} (h : pages.functions = [])
    (lines : List String) : pages.statements lines = .ok [] := by
  simp only [statements, h]
  rfl

namespace Project

/-- The statements that are added to the drawing of the graph, given its lines. -/
def blocks (p : Project) (lines : List String) : Except Fault (List Dot.Statement) :=
  match p.depth with
  | .plain => .ok []
  | .deep => .ok (p.facts.implementationStatements lines)
  | .paged => do
    let pages ← p.pages.statements (p.facts.drawInto lines)
    return p.facts.implementationStatements lines ++ pages

def statements (p : Project) : Except Fault (List Dot.Statement) := do
  let drawn ← p.graph.openStatements
  let added ← p.blocks (Dot.linesOf (Dot.close drawn))
  return Dot.close (drawn ++ added)

/-- The lines of the drawing of a project are the lines of its statements. -/
theorem dotLines_eq (p : Project) : p.dotLines = p.statements.map Dot.linesOf := by
  -- Inserting the lines of a block into a closed drawing is closing the drawing after the block.
  have hinsert : ∀ drawn block : List Dot.Statement,
      Dot.insertBeforeClosing (Dot.linesOf (Dot.close drawn)) (Dot.linesOf block) =
        Dot.linesOf (Dot.close (drawn ++ block)) := by
    intro drawn block
    simp only [Dot.close, Dot.linesOf_append, Dot.linesOf_closing, Dot.insertBeforeClosing_append]
  unfold dotLines statements blocks
  rw [Graph.dotLines_eq]
  cases p.graph.openStatements with
  | error e => rfl
  | ok drawn =>
    simp only [Except.map, bind, Except.bind]
    cases p.depth with
    | plain => simp [pure, Except.pure]
    | deep => exact congrArg Except.ok (hinsert drawn _)
    | paged =>
      -- The lines with the implementations are themselves those of a closed drawing.
      have hfacts : p.facts.drawInto (Dot.linesOf (Dot.close drawn)) =
          Dot.linesOf (Dot.close (drawn ++
            p.facts.implementationStatements (Dot.linesOf (Dot.close drawn)))) := hinsert drawn _
      simp only [PageLinks.drawInto, bind, Except.bind]
      cases p.pages.statements (p.facts.drawInto (Dot.linesOf (Dot.close drawn))) with
      | error e => rfl
      | ok pages =>
        refine congrArg Except.ok ?_
        rw [hfacts, hinsert, List.append_assoc]

end Project

/-! ## What statements are about -/

namespace Dot

namespace Statement

/-- The statement is for the node of a name, or for an edge that has it at an end. -/
def Names (name : String) : Statement → Prop
  | .line _ => False
  | .node n => n.name = name
  | .edge e => e.source = name ∨ e.target = name

def Runs (source target : String) : Statement → Prop
  | .line _ => False
  | .node _ => False
  | .edge e => e.source = source ∧ e.target = target

end Statement

/-- The names and the edges that statements are about. -/
structure Shows (statements : List Statement) (names : String → Prop)
    (edges : String → String → Prop) : Prop where
  names_iff : ∀ name, (∃ st ∈ statements, st.Names name) ↔ names name
  edges_iff : ∀ source target, (∃ st ∈ statements, st.Runs source target) ↔ edges source target

namespace Shows

variable {α : Type} {first rest : List Statement} {names names' : String → Prop}
  {edges edges' : String → String → Prop}

theorem nil : Shows [] (fun _ => False) (fun _ _ => False) := by
  constructor <;> simp

theorem line (text : String) : Shows [.line text] (fun _ => False) (fun _ _ => False) := by
  constructor <;> simp [Statement.Names, Statement.Runs]

theorem node (n : NodeStatement) :
    Shows [.node n] (fun name => n.name = name) (fun _ _ => False) := by
  constructor <;> simp [Statement.Names, Statement.Runs]

theorem edge (e : EdgeStatement) :
    Shows [.edge e] (fun name => e.source = name ∨ e.target = name)
      (fun source target => e.source = source ∧ e.target = target) := by
  constructor <;> simp [Statement.Names, Statement.Runs]

/-- Statements one after the other show what both of them show. -/
theorem append (h : Shows first names edges) (h' : Shows rest names' edges') :
    Shows (first ++ rest) (fun name => names name ∨ names' name)
      (fun source target => edges source target ∨ edges' source target) := by
  constructor
  · intro name
    rw [← h.names_iff, ← h'.names_iff]
    simp only [List.mem_append, or_and_right, exists_or]
  · intro source target
    rw [← h.edges_iff, ← h'.edges_iff]
    simp only [List.mem_append, or_and_right, exists_or]

theorem congr (h : Shows first names edges) (hnames : ∀ name, names name ↔ names' name)
    (hedges : ∀ source target, edges source target ↔ edges' source target) :
    Shows first names' edges' :=
  ⟨fun name => (h.names_iff name).trans (hnames name),
    fun source target => (h.edges_iff source target).trans (hedges source target)⟩

/-- Lines at the start that are written as they stand show nothing. -/
theorem after_lines (h : Shows first names edges) (one two : String) :
    Shows ([.line one, .line two] ++ first) names edges :=
  (((line one).append (line two)).append h).congr (fun _ => by simp) (fun _ _ => by simp)

/-- Statements for several things show what each of them shows. -/
theorem flatMap {xs : List α} {f : α → List Statement} {namesOf : α → String → Prop}
    {edgesOf : α → String → String → Prop}
    (h : ∀ x ∈ xs, Shows (f x) (namesOf x) (edgesOf x)) :
    Shows (xs.flatMap f) (fun name => ∃ x ∈ xs, namesOf x name)
      (fun source target => ∃ x ∈ xs, edgesOf x source target) := by
  induction xs with
  | nil => exact nil.congr (by simp) (by simp)
  | cons x rest ih =>
    have hrest := ih (fun y hy => h y (List.mem_cons_of_mem _ hy))
    exact ((h x List.mem_cons_self).append hrest).congr (by simp) (by simp)

/-- The parts of a drawing that a loop gives one after the other. -/
theorem mapM {xs : List α} {f : α → Except Fault (List Statement)} {each : List (List Statement)}
    {namesOf : α → String → Prop} {edgesOf : α → String → String → Prop}
    (hrun : xs.mapM f = .ok each)
    (h : ∀ x ∈ xs, ∀ part, f x = .ok part → Shows part (namesOf x) (edgesOf x)) :
    Shows each.flatten (fun name => ∃ x ∈ xs, namesOf x name)
      (fun source target => ∃ x ∈ xs, edgesOf x source target) := by
  -- Not by `Shows.flatMap`: the parts are known only as far as the loop has come.
  induction xs generalizing each with
  | nil =>
    cases hrun
    exact nil.congr (by simp) (by simp)
  | cons x rest ih =>
    rcases mapM_cons_eq_ok hrun with ⟨part, others, hpart, hothers, rfl⟩
    have hrest := ih hothers (fun y hy => h y (List.mem_cons_of_mem _ hy))
    exact ((h x List.mem_cons_self part hpart).append hrest).congr (by simp) (by simp)

end Shows

end Dot

end JavaDeps
