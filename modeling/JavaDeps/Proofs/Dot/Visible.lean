import JavaDeps.Proofs.Edits.Spared

/-!
# The drawing shows the visible graph

The edges of a drawing are gone through table by table, and its nodes are collected from both tables
beforehand. So the edges of the drawing are those of the tables, in their order and without the
hidden ones, and its nodes include all ends of these edges. This takes that nodes which compare as
equal have one name, since a set holds only one of them.
-/

namespace JavaDeps

/-- The results of a loop that succeeds, seen in a way that what it goes through decides. -/
theorem map_of_mapM {α β γ : Type} {f : α → Except Fault β} {p : β → γ} {q : α → γ} {xs : List α}
    {ys : List β} (h : xs.mapM f = .ok ys) (hf : ∀ x y, f x = .ok y → p y = q x) :
    ys.map p = xs.map q := by
  induction xs generalizing ys with
  | nil =>
    cases h
    rfl
  | cons x rest ih =>
    rcases mapM_cons_eq_ok h with ⟨first, others, hfirst, hothers, rfl⟩
    rw [List.map_cons, List.map_cons, hf x first hfirst, ih hothers]

/-! ## Names in statements -/

def Dot.Statement.node? : Dot.Statement → Option String
  | .node n => some n.name
  | _ => none

def Dot.Statement.edge? : Dot.Statement → Option (String × String)
  | .edge e => some (e.source, e.target)
  | _ => none

def endNames {α : Type} [BEq α] (name : α → String) (t : Table α (Targets α)) :
    List (String × String) :=
  t.entries.flatMap (fun e => e.2.keys.map (fun k => (name e.1, name k)))

theorem endNames_eq {α : Type} [BEq α] (name : α → String) (t : Table α (Targets α)) :
    endNames name t = (Dot.namedEdges name t).map (fun e => (e.1, e.2.1)) := by
  simp [endNames, Dot.namedEdges, Table.keys, List.map_flatMap, Function.comp_def]

namespace Graph

variable {g : Graph}

/-- Neither end of the edge is hidden, nor is the edge itself. -/
def Visible (g : Graph) (e : String × String) : Prop :=
  g.hiddenNodes.contains (.str e.1) = false ∧ g.hiddenNodes.contains (.str e.2) = false ∧
    g.hiddenEdges.contains (.str e.1, .str e.2) = false

instance (e : String × String) : Decidable (g.Visible e) := inferInstanceAs (Decidable (_ ∧ _ ∧ _))

/-- An edge is left out if it or one of its ends is hidden. -/
theorem hidesEdge_eq_false {a b : String} : g.hidesEdge a b = false ↔ g.Visible (a, b) := by
  simp [hidesEdge, hidesNode, Visible, and_assoc]

/-- The edges that are drawn are the visible ones, in their order. -/
theorem ends_of_edgeStatementsOf {α : Type} [BEq α] {name : α → String} {t : Table α (Targets α)}
    {general style : String} {drawn : List Dot.EdgeStatement}
    (h : Dot.edgeStatementsOf g general style (Dot.namedEdges name t) = .ok drawn) :
    drawn.map (fun e => (e.source, e.target)) = (endNames name t).filter g.Visible := by
  have hshown : ∀ e : String × String × Value,
      (!g.hidesEdge e.1 e.2.1) = decide (g.Visible (e.1, e.2.1)) := by
    intro e
    rw [Bool.eq_iff_iff, Bool.not_eq_true', hidesEdge_eq_false, decide_eq_true_iff]
  rw [endNames_eq, List.filter_map, Function.comp_def]
  simp only [← hshown]
  refine map_of_mapM h (fun e st hst => ?_)
  rw [(ends_of_edgeStatement hst).1, (ends_of_edgeStatement hst).2]

/-- The nodes of a drawing are those that are not hidden, and its edges are those of the calls and
then the added ones. -/
theorem names_of_statements {drawn : List Dot.Statement} (h : g.statements = .ok drawn) :
    (∃ nodes, g.nodeStatements = .ok nodes ∧
      drawn.filterMap Dot.Statement.node? = nodes.map (fun n => n.name)) ∧
    drawn.filterMap Dot.Statement.edge? =
      (endNames SourcePath.stem g.calls ++ endNames Node.simpleName g.customEdges).filter
        g.Visible := by
  rcases bind_eq_ok h with ⟨nodes, hnodes, h⟩
  rcases bind_eq_ok h with ⟨edges, hedges, h⟩
  rcases bind_eq_ok hedges with ⟨calls, hcalls, hedges⟩
  rcases bind_eq_ok hedges with ⟨custom, hcustom, hedges⟩
  cases h
  cases hedges
  rw [List.filter_append, ← ends_of_edgeStatementsOf hcalls, ← ends_of_edgeStatementsOf hcustom]
  simp [hnodes, Dot.opening, Dot.gap, Dot.remark, List.filterMap_cons, Dot.Statement.node?,
    Dot.Statement.edge?, Function.comp_def]

theorem runs_of_mem_endNames {e : String × String}
    (h : e ∈ endNames SourcePath.stem g.calls ++ endNames Node.simpleName g.customEdges) :
    ∃ v, g.Runs e.1 e.2 v := by
  rw [endNames_eq, endNames_eq, ← List.map_append] at h
  rcases List.mem_map.1 h with ⟨⟨a, b, v⟩, hmem, rfl⟩
  exact ⟨v, runs_iff.2 (List.mem_append.1 hmem)⟩

end Graph

/-- The drawing of a graph whose labels are texts has a statement for each call and then one for
each added edge that is not hidden, in the order of the tables, and no statement for a hidden node.
If nodes that compare as equal have one name, both ends of each edge have a statement of their own.
-/
theorem drawing_shows_visible (g : Graph) (hworded : g.Worded) :
    ∃ drawn, g.statements = .ok drawn ∧ g.dotLines = .ok (Dot.linesOf drawn) ∧
      drawn.filterMap Dot.Statement.edge? =
        (endNames SourcePath.stem g.calls ++ endNames Node.simpleName g.customEdges).filter
          g.Visible ∧
      (∀ name ∈ drawn.filterMap Dot.Statement.node?, g.hiddenNodes.contains (.str name) = false) ∧
      (g.OneName → ∀ e ∈ drawn.filterMap Dot.Statement.edge?,
        e.1 ∈ drawn.filterMap Dot.Statement.node? ∧ e.2 ∈ drawn.filterMap Dot.Statement.node?) := by
  rcases hworded.statements_ok with ⟨drawn, hdrawn⟩
  rcases Graph.names_of_statements hdrawn with ⟨⟨nodes, hnodes, hnames⟩, hedges⟩
  refine ⟨drawn, hdrawn, Graph.dotLines_of_statements hdrawn, hedges, ?_, fun hone e he => ?_⟩
  · intro name hname
    rw [hnames] at hname
    rcases List.mem_map.1 hname with ⟨n, hn, rfl⟩
    exact Graph.hidesNode_of_mem_nodeStatements hnodes hn
  · rw [hedges] at he
    rcases List.mem_filter.1 he with ⟨hmem, hvisible⟩
    rcases Graph.runs_of_mem_endNames hmem with ⟨v, source, target, hentry, hsource, htarget⟩
    rcases of_decide_eq_true hvisible with ⟨hshown, hshown', -⟩
    rw [← hsource] at hshown ⊢
    rw [← htarget] at hshown' ⊢
    rw [hnames]
    exact ⟨List.mem_map.2 (hone.node_of_isNode hnodes hentry.isNode.1 hshown),
      List.mem_map.2 (hone.node_of_isNode hnodes hentry.isNode.2 hshown')⟩

theorem mixedGraph_shows_visible :
    mixedGraph.Worded ∧ mixedGraph.OneName ∧
      ∃ drawn, mixedGraph.statements = .ok drawn ∧
        drawn.filterMap Dot.Statement.edge? = [("A", "B"), ("A", "B")] ∧
        "A" ∈ drawn.filterMap Dot.Statement.node? ∧ "B" ∈ drawn.filterMap Dot.Statement.node? := by
  rcases drawing_shows_visible mixedGraph mixedGraph_worded with
    ⟨drawn, hdrawn, -, hedges, -, hends⟩
  have hedges := hedges.trans (show _ = [("A", "B"), ("A", "B")] by decide)
  have hmem : ("A", "B") ∈ drawn.filterMap Dot.Statement.edge? := hedges ▸ List.mem_cons_self
  exact ⟨mixedGraph_worded, mixedGraph_oneName, drawn, hdrawn, hedges,
    hends mixedGraph_oneName _ hmem⟩

/-- An edge is drawn from a number, and only the truth value that is equal to it is drawn as a node.
-/
theorem equal_node_unshown :
    ∃ t drawn,
      (do openProject .plain "."; analyze : Action Unit) (Session.ofDisk default) = (.ok (), t) ∧
      (Operation.afterAll truthOperations t).project.graph = truthGraph ∧ truthGraph.Worded ∧
      truthGraph.statements = .ok drawn ∧ ("1", "X") ∈ drawn.filterMap Dot.Statement.edge? ∧
      "1" ∉ drawn.filterMap Dot.Statement.node? := by
  have hshown : truthGraph.statements.toOption.any (fun drawn =>
      decide (("1", "X") ∈ drawn.filterMap Dot.Statement.edge? ∧
        "1" ∉ drawn.filterMap Dot.Statement.node?)) = true := by
    decide +kernel
  rcases exists_of_toOption_any hshown with ⟨drawn, hdrawn, hnames⟩
  exact ⟨_, drawn, rfl, rfl, truthGraph_worded, hdrawn, of_decide_eq_true hnames⟩

end JavaDeps
