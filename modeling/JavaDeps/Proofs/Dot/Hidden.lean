import JavaDeps.Proofs.Dot.Statements
import JavaDeps.Proofs.Operations
import JavaDeps.Proofs.Pages.Engine

/-!
# Hidden nodes and edges in drawings

Hidden nodes and hidden edges are left out of the drawing of a graph. The blocks that are added to
it for the implementations of services and for page functions do not look at what is hidden. So a
hidden name or edge is drawn exactly if it occurs in one of these blocks.
-/

namespace JavaDeps

/-! ## The drawing of the graph -/

namespace Graph

variable {g : Graph}

/-- Hidden nodes are not drawn. -/
theorem hidesNode_of_mem_nodeStatements {nodes : List Dot.NodeStatement}
    (h : g.nodeStatements = .ok nodes) {n : Dot.NodeStatement} (hn : n ∈ nodes) :
    g.hidesNode n.name = false := by
  rcases (mem_mapM_iff h).1 hn with ⟨node, hnode, hstatement⟩
  rcases bind_eq_ok hstatement with ⟨details, -, hstatement⟩
  cases hstatement
  simpa using (List.mem_filter.1 hnode).2

theorem ends_of_edgeStatement {general style source target : String} {labels : Value}
    {e : Dot.EdgeStatement} (h : Dot.edgeStatement general style source target labels = .ok e) :
    e.source = source ∧ e.target = target := by
  -- The labels decide how the edge is written, not where it runs.
  unfold Dot.edgeStatement at h
  dsimp only at h
  split at h
  · rcases bind_eq_ok h with ⟨label, -, h⟩
    cases h
    exact ⟨rfl, rfl⟩
  · cases h
    exact ⟨rfl, rfl⟩

theorem hidesEdge_of_mem_edgeStatementsOf {general style : String}
    {edges : List (String × String × Value)} {drawn : List Dot.EdgeStatement}
    (h : Dot.edgeStatementsOf g general style edges = .ok drawn) {e : Dot.EdgeStatement}
    (he : e ∈ drawn) : g.hidesEdge e.source e.target = false := by
  rcases (mem_mapM_iff h).1 he with ⟨edge, hedge, hstatement⟩
  rcases ends_of_edgeStatement hstatement with ⟨hsource, htarget⟩
  rw [hsource, htarget]
  simpa using (List.mem_filter.1 hedge).2

/-- Hidden edges of a graph are not drawn. -/
theorem hidesEdge_of_mem_edgeStatements {drawn : List Dot.EdgeStatement}
    (h : g.edgeStatements = .ok drawn) {e : Dot.EdgeStatement} (he : e ∈ drawn) :
    g.hidesEdge e.source e.target = false := by
  rcases bind_eq_ok h with ⟨calls, hcalls, h⟩
  rcases bind_eq_ok h with ⟨custom, hcustom, h⟩
  cases h
  rcases List.mem_append.1 he with he | he
  · exact hidesEdge_of_mem_edgeStatementsOf hcalls he
  · exact hidesEdge_of_mem_edgeStatementsOf hcustom he

/-- The drawing of a graph consists of lines, nodes that are not hidden and edges that are not. -/
theorem openStatements_cases {drawn : List Dot.Statement} (h : g.openStatements = .ok drawn)
    {st : Dot.Statement} (hst : st ∈ drawn) :
    (∃ text, st = .line text) ∨ (∃ n, st = .node n ∧ g.hidesNode n.name = false) ∨
      ∃ e, st = .edge e ∧ g.hidesEdge e.source e.target = false := by
  rcases bind_eq_ok h with ⟨nodes, hnodes, h⟩
  rcases bind_eq_ok h with ⟨edges, hedges, h⟩
  cases h
  have hopening : ∀ st ∈ Dot.opening, ∃ text, st = .line text := by
    simp [Dot.opening, Dot.gap]
  simp only [List.mem_append, List.mem_map, List.mem_cons, List.not_mem_nil, or_false] at hst
  rcases hst with ((hst | ⟨n, hn, rfl⟩) | hst) | ⟨e, he, rfl⟩
  · exact Or.inl (hopening st hst)
  · exact Or.inr (Or.inl ⟨n, rfl, hidesNode_of_mem_nodeStatements hnodes hn⟩)
  · rcases hst with rfl | rfl
    · exact Or.inl ⟨_, rfl⟩
    · exact Or.inl ⟨_, rfl⟩
  · exact Or.inr (Or.inr ⟨e, rfl, hidesEdge_of_mem_edgeStatements hedges he⟩)

/-- The drawing of a graph does not name a hidden node. -/
theorem not_names_of_hidesNode {drawn : List Dot.Statement} (h : g.openStatements = .ok drawn)
    {name : String} (hhidden : g.hidesNode name = true) : ∀ st ∈ drawn, ¬ st.Names name := by
  intro st hst hnames
  rcases openStatements_cases h hst with ⟨text, rfl⟩ | ⟨n, rfl, hshown⟩ | ⟨e, rfl, hshown⟩
  · exact hnames
  · cases hnames
    rw [hhidden] at hshown
    cases hshown
  · -- An edge is left out when either of its ends is hidden.
    rcases hnames with rfl | rfl <;> simp [hidesEdge, hhidden] at hshown

/-- The drawing of a graph has no hidden edge. -/
theorem not_runs_of_hidesEdge {drawn : List Dot.Statement} (h : g.openStatements = .ok drawn)
    {source target : String} (hhidden : g.hidesEdge source target = true) :
    ∀ st ∈ drawn, ¬ st.Runs source target := by
  intro st hst hruns
  rcases openStatements_cases h hst with ⟨text, rfl⟩ | ⟨n, rfl, hshown⟩ | ⟨e, rfl, hshown⟩
  · exact hruns
  · exact hruns
  · rcases hruns with ⟨rfl, rfl⟩
    rw [hhidden] at hshown
    cases hshown

end Graph

/-! ## The block of the implementations -/

/-- A dependency of a function is written as a class and the way in which it is used. -/
def Dot.DependsOn (dependency className : String) : Prop :=
  ∃ use, Text.splitAtMost dependency '#' 1 = [className, use]

/-- The edges that are drawn for a service: to the file that implements it, and from the file to the
classes that the functions depend on. -/
def Dot.ServiceEdge (service file : String) (functions : Table String NameSet)
    (source target : String) : Prop :=
  (service = source ∧ file = target) ∨
    ∃ function ∈ functions.entries, ∃ dependency ∈ function.2.toList,
      file = source ∧ DependsOn dependency target

/-- The edges that are drawn for a service with the file that implements it: none, unless selected
functions were found in the file. -/
def Facts.ImplementationEdge (f : Facts) (e : String × SourcePath) (source target : String) :
    Prop :=
  ∃ functions, f.methodDependencies.get? e.2 = some functions ∧
    Dot.ServiceEdge e.1 e.2.stem functions source target

def Facts.BlockEdge (f : Facts) (source target : String) : Prop :=
  ∃ e ∈ f.serviceFiles.entries, f.ImplementationEdge e source target

def IsEnd (edges : String → String → Prop) (name : String) : Prop :=
  ∃ other, edges name other ∨ edges other name

theorem isEnd_exists {α : Type} {xs : List α} {edges : α → String → String → Prop} {name : String} :
    IsEnd (fun source target => ∃ x ∈ xs, edges x source target) name ↔
      ∃ x ∈ xs, IsEnd (edges x) name := by
  constructor
  · rintro ⟨other, ⟨x, hx, hedge⟩ | ⟨x, hx, hedge⟩⟩
    · exact ⟨x, hx, other, Or.inl hedge⟩
    · exact ⟨x, hx, other, Or.inr hedge⟩
  · rintro ⟨x, hx, other, hedge | hedge⟩
    · exact ⟨other, Or.inl ⟨x, hx, hedge⟩⟩
    · exact ⟨other, Or.inr ⟨x, hx, hedge⟩⟩

namespace Dot

/-- A dependency draws an edge from its file to its class. -/
theorem dependencyStatements_shows (lines : List String) (file function dependency : String) :
    Shows (dependencyStatements lines file function dependency)
      (fun name => ∃ className, DependsOn dependency className ∧ (file = name ∨ className = name))
      (fun source target => file = source ∧ DependsOn dependency target) := by
  unfold dependencyStatements
  split
  · rename_i className use hsplit
    have hdepends : ∀ other, DependsOn dependency other ↔ className = other := by
      simp [DependsOn, hsplit]
    have hnode : Shows (if draws lines className then [] else [Statement.node
          { name := className, label := className, color := (dependencyLook className use).1,
            shape? := some (dependencyLook className use).2 }])
        (fun name => draws lines className = false ∧ className = name) (fun _ _ => False) := by
      by_cases hdraws : draws lines className = true
      · simpa [hdraws] using Shows.nil
      · simpa [hdraws] using Shows.node _
    refine (hnode.append (Shows.edge _)).congr (fun name => ?_) (fun source target => ?_)
    · -- The class is at the end of the edge, whether it gets a node or has one.
      simp only [hdepends, exists_eq_left']
      exact ⟨fun h => h.elim (fun h => Or.inr h.2) id, Or.inr⟩
    · simp [hdepends]
  · rename_i hsplit
    have hdepends : ∀ other, ¬ DependsOn dependency other :=
      fun other ⟨use, huse⟩ => hsplit other use huse
    exact Shows.nil.congr (fun name => by simp [hdepends]) (fun source target => by simp [hdepends])

theorem functionStatements_shows (lines : List String) (file function : String) (deps : NameSet) :
    Shows (functionStatements lines file function deps)
      (fun name => ∃ dependency ∈ deps.toList, ∃ className, DependsOn dependency className ∧
        (file = name ∨ className = name))
      (fun source target => ∃ dependency ∈ deps.toList,
        file = source ∧ DependsOn dependency target) := by
  have hall := Shows.flatMap (fun dependency (_ : dependency ∈ deps.toList) =>
    dependencyStatements_shows lines file function dependency)
  -- Without dependencies there is not even a remark, and the remark itself shows nothing.
  unfold functionStatements
  split
  · rename_i hempty
    have hnone : deps.toList = [] := by simpa [SortedSet.isEmpty, SortedSet.toList] using hempty
    rw [hnone] at hall ⊢
    exact hall
  · exact hall.after_lines _ _

/-- A service draws its implementation and what the functions in it depend on. -/
theorem serviceStatements_shows (lines : List String) (service file : String)
    (functions : Table String NameSet) :
    Shows (serviceStatements lines service file functions)
      (IsEnd (ServiceEdge service file functions)) (ServiceEdge service file functions) := by
  have hfunctions := Shows.flatMap (fun e (_ : e ∈ functions.entries) =>
    functionStatements_shows lines file e.1 e.2)
  refine (((Shows.node _).append (Shows.edge _)).append hfunctions).congr (fun name => ?_)
    (fun source target => ?_)
  · -- The file is at an end of the edge from its service, and every class at one from its file.
    constructor
    · rintro ((rfl | rfl | rfl) | ⟨function, hfunction, dependency, hdep, className,
        hclass, rfl | rfl⟩)
      · exact ⟨service, Or.inr (Or.inl ⟨rfl, rfl⟩)⟩
      · exact ⟨file, Or.inl (Or.inl ⟨rfl, rfl⟩)⟩
      · exact ⟨service, Or.inr (Or.inl ⟨rfl, rfl⟩)⟩
      · exact ⟨service, Or.inr (Or.inl ⟨rfl, rfl⟩)⟩
      · exact ⟨file, Or.inr (Or.inr ⟨function, hfunction, dependency, hdep, rfl, hclass⟩)⟩
    · rintro ⟨other, (⟨rfl, -⟩ | ⟨-, -, -, -, rfl, -⟩) |
        (⟨-, rfl⟩ | ⟨function, hfunction, dependency, hdep, -, hclass⟩)⟩
      · exact Or.inl (Or.inr (Or.inl rfl))
      · exact Or.inl (Or.inl rfl)
      · exact Or.inl (Or.inl rfl)
      · exact Or.inr ⟨function, hfunction, dependency, hdep, name, hclass, Or.inr rfl⟩
  · simp [ServiceEdge]

end Dot

/-- The block of implementations draws nothing but its edges. -/
theorem Facts.implementationStatements_shows (f : Facts) (lines : List String) :
    Dot.Shows (f.implementationStatements lines) (IsEnd f.BlockEdge) f.BlockEdge := by
  refine ((@Dot.Shows.flatMap _ f.serviceFiles.entries _ (fun e => IsEnd (f.ImplementationEdge e))
    f.ImplementationEdge (fun e _ => ?_)).after_lines _ _).congr (fun name => isEnd_exists.symm)
    (fun source target => Iff.rfl)
  -- A service is drawn only if functions of its file were looked at.
  cases hlooked : f.methodDependencies.get? e.2 with
  | none =>
    have hnone : ∀ source target, ¬ f.ImplementationEdge e source target := by
      simp [ImplementationEdge, hlooked]
    exact Dot.Shows.nil.congr (fun name => by simp [IsEnd, hnone])
      (fun source target => by simp [hnone])
  | some functions =>
    have hedges : f.ImplementationEdge e = Dot.ServiceEdge e.1 e.2.stem functions := by
      funext source target
      simp [ImplementationEdge, hlooked]
    rw [hedges]
    exact Dot.serviceStatements_shows lines e.1 e.2.stem functions

theorem isEnd_or {edges edges' : String → String → Prop} {name : String} :
    IsEnd (fun source target => edges source target ∨ edges' source target) name ↔
      IsEnd edges name ∨ IsEnd edges' name := by
  constructor
  · rintro ⟨other, (h | h) | (h | h)⟩
    · exact Or.inl ⟨other, Or.inl h⟩
    · exact Or.inr ⟨other, Or.inl h⟩
    · exact Or.inl ⟨other, Or.inr h⟩
    · exact Or.inr ⟨other, Or.inr h⟩
  · rintro (⟨other, h | h⟩ | ⟨other, h | h⟩)
    · exact ⟨other, Or.inl (Or.inl h)⟩
    · exact ⟨other, Or.inr (Or.inl h)⟩
    · exact ⟨other, Or.inl (Or.inr h)⟩
    · exact ⟨other, Or.inr (Or.inr h)⟩

/-! ## The block of the page functions -/

namespace Dot

/-- The name under which the component of a page function is drawn: its own one if the lines draw
it, and another one if not. -/
def componentName (lines : List String) (component : Value) : String :=
  if draws lines component.display && component.isTruthy then component.display
  else "Java_" ++ component.display

/-- A component is drawn with the page function that calls it. -/
theorem componentStatements_shows (lines : List String) (node : String) (component : Value) :
    Shows (componentStatements lines node component)
      (fun name => node = name ∨ componentName lines component = name)
      (fun source target => node = source ∧ componentName lines component = target) := by
  unfold componentStatements componentName
  by_cases hdrawn : (draws lines component.display && component.isTruthy) = true
  · simp only [hdrawn, if_true]
    exact Shows.edge _
  · simp only [hdrawn]
    refine ((Shows.node _).append (Shows.edge _)).congr (fun name => ?_) (fun source target => ?_)
    · exact ⟨fun h => h.elim Or.inr id, Or.inr⟩
    · exact ⟨fun h => h.elim False.elim id, Or.inr⟩

theorem text_of_textFor {v : Value} {member text : String} (h : v.textFor member = .ok text) :
    v = .str text := by
  unfold Value.textFor at h
  split at h
  · cases h
    rfl
  · cases h

def PageEdge (lines : List String) (components : Table Atom Value) (f : PageFunction)
    (source target : String) : Prop :=
  ∃ text component, f.name = .str text ∧ components.get? (.str text) = some component ∧
    pageNodeName text = source ∧ componentName lines component = target

/-- A page function is drawn with the component that is found for it. -/
theorem pageStatements_shows {lines : List String} {components : Table Atom Value}
    {f : PageFunction} {drawn : List Statement}
    (h : pageStatements lines components f = .ok drawn) :
    Shows drawn
      (fun name => (∃ text, f.name = .str text ∧ pageNodeName text = name) ∨
        IsEnd (PageEdge lines components f) name)
      (PageEdge lines components f) := by
  rcases bind_eq_ok h with ⟨text, htext, h⟩
  cases h
  -- The drawing succeeded, so the function has a text as its name and no other value.
  have hname : ∀ other, f.name = .str other ↔ text = other := by
    rw [text_of_textFor htext]
    simp
  have hedge : ∀ source target, PageEdge lines components f source target ↔
      ∃ component, components.get? (.str text) = some component ∧
        pageNodeName text = source ∧ componentName lines component = target := by
    intro source target
    simp only [PageEdge, hname, exists_and_left, exists_eq_left']
  cases hcomponent : components.get? (.str text) with
  | none =>
    refine (Shows.node _).congr (fun name => ?_) (fun source target => ?_)
    · simp [hname, IsEnd, hedge, hcomponent]
    · simp [hedge, hcomponent]
  | some component =>
    refine ((Shows.node _).append (componentStatements_shows lines _ component)).congr
      (fun name => ?_) (fun source target => ?_)
    · simp only [hname, exists_eq_left', IsEnd, hedge, hcomponent, Option.some.injEq]
      constructor
      · rintro (rfl | rfl | rfl)
        · exact Or.inl rfl
        · exact Or.inl rfl
        · exact Or.inr ⟨pageNodeName text, Or.inr ⟨rfl, rfl⟩⟩
      · rintro (rfl | ⟨other, ⟨rfl, -⟩ | ⟨-, rfl⟩⟩)
        · exact Or.inl rfl
        · exact Or.inl rfl
        · exact Or.inr (Or.inr rfl)
    · simp [hedge, hcomponent]

end Dot

namespace PageLinks

def BlockNode (p : PageLinks) (name : String) : Prop :=
  ∃ f ∈ p.functions, ∃ text, f.name = .str text ∧ Dot.pageNodeName text = name

def BlockEdge (p : PageLinks) (lines : List String) (source target : String) : Prop :=
  ∃ f ∈ p.functions, Dot.PageEdge lines p.components f source target

theorem statements_shows {p : PageLinks} {lines : List String} {drawn : List Dot.Statement}
    (h : p.statements lines = .ok drawn) :
    Dot.Shows drawn (fun name => p.BlockNode name ∨ IsEnd (p.BlockEdge lines) name)
      (p.BlockEdge lines) := by
  unfold statements at h
  split at h
  · rename_i hempty
    have hnone : p.functions = [] := by simpa using hempty
    cases h
    exact Dot.Shows.nil.congr (fun name => by simp [BlockNode, BlockEdge, IsEnd, hnone])
      (fun source target => by simp [BlockEdge, hnone])
  · rcases bind_eq_ok h with ⟨each, heach, h⟩
    cases h
    have hpages := Dot.Shows.mapM heach (fun f _ part hpart => Dot.pageStatements_shows hpart)
    refine (hpages.after_lines _ _).congr (fun name => ?_) (fun source target => Iff.rfl)
    simp only [and_or_left, exists_or, BlockNode]
    exact or_congr_right isEnd_exists.symm

end PageLinks

/-! ## The drawing of a project -/

namespace Project

/-- The edges that are added to the drawing of the graph, whose lines are given. -/
def BlockEdge (p : Project) (lines : List String) (source target : String) : Prop :=
  (p.depth ≠ .plain ∧ p.facts.BlockEdge source target) ∨
    (p.depth = .paged ∧ p.pages.BlockEdge (p.facts.drawInto lines) source target)

/-- The names that stand in what is added to the drawing of the graph: page functions and the ends
of edges. -/
def BlockNames (p : Project) (lines : List String) (name : String) : Prop :=
  (p.depth = .paged ∧ p.pages.BlockNode name) ∨ IsEnd (p.BlockEdge lines) name

/-- The blocks of a project draw their names and edges whether these are hidden or not. -/
theorem blocks_shows {p : Project} {lines : List String} {added : List Dot.Statement}
    (h : p.blocks lines = .ok added) :
    Dot.Shows added (p.BlockNames lines) (p.BlockEdge lines) := by
  unfold blocks at h
  have himplementations := p.facts.implementationStatements_shows lines
  cases hdepth : p.depth with
  | plain =>
    rw [hdepth] at h
    cases h
    exact Dot.Shows.nil.congr (fun name => by simp [BlockNames, BlockEdge, IsEnd, hdepth])
      (fun source target => by simp [BlockEdge, hdepth])
  | deep =>
    rw [hdepth] at h
    cases h
    exact himplementations.congr (fun name => by simp [BlockNames, BlockEdge, IsEnd, hdepth])
      (fun source target => by simp [BlockEdge, hdepth])
  | paged =>
    rw [hdepth] at h
    rcases bind_eq_ok h with ⟨pages, hpages, h⟩
    cases h
    -- Page functions see the lines with the implementations, which decide where their edges end.
    refine (himplementations.append (PageLinks.statements_shows hpages)).congr (fun name => ?_)
      (fun source target => by simp [BlockEdge, hdepth])
    have hedges : p.BlockEdge lines = fun source target => p.facts.BlockEdge source target ∨
        p.pages.BlockEdge (p.facts.drawInto lines) source target := by
      funext source target
      simp [BlockEdge, hdepth]
    simp only [BlockNames, hdepth, hedges, isEnd_or, true_and]
    exact or_left_comm

/-- The statements of a project are those of its graph and those of the blocks. -/
theorem statements_cases {p : Project} {drawn : List Dot.Statement} (h : p.statements = .ok drawn) :
    ∃ shown lines added, p.graph.openStatements = .ok shown ∧ p.graph.dotLines = .ok lines ∧
      Dot.Shows added (p.BlockNames lines) (p.BlockEdge lines) ∧
      ∀ st, st ∈ drawn ↔ st ∈ shown ∨ st ∈ added ∨ st = .line Dot.closing := by
  rcases bind_eq_ok h with ⟨shown, hshown, h⟩
  rcases bind_eq_ok h with ⟨added, hadded, h⟩
  cases h
  refine ⟨shown, _, added, hshown, ?_, blocks_shows hadded, fun st => ?_⟩
  · rw [Graph.dotLines_eq, hshown]
    rfl
  · simp [Dot.close]

/-- If the drawing of the graph is not about something, the blocks decide whether it is drawn. -/
theorem exists_drawn_iff {about : Dot.Statement → Prop} {drawn shown added : List Dot.Statement}
    (hmem : ∀ st, st ∈ drawn ↔ st ∈ shown ∨ st ∈ added ∨ st = .line Dot.closing)
    (hshown : ∀ st ∈ shown, ¬ about st) (hclosing : ¬ about (.line Dot.closing)) :
    (∃ st ∈ drawn, about st) ↔ ∃ st ∈ added, about st := by
  constructor
  · rintro ⟨st, hst, habout⟩
    rcases (hmem st).1 hst with hst | hst | rfl
    · exact absurd habout (hshown st hst)
    · exact ⟨st, hst, habout⟩
    · exact absurd habout hclosing
  · rintro ⟨st, hst, habout⟩
    exact ⟨st, (hmem st).2 (Or.inr (Or.inl hst)), habout⟩

/-- A hidden name is drawn exactly if a block draws it. -/
theorem names_iff_of_hidesNode {p : Project} {drawn : List Dot.Statement}
    (h : p.statements = .ok drawn) {name : String} (hhidden : p.graph.hidesNode name = true) :
    ∃ lines, p.graph.dotLines = .ok lines ∧
      ((∃ st ∈ drawn, st.Names name) ↔ p.BlockNames lines name) := by
  rcases statements_cases h with ⟨shown, lines, added, hshown, hlines, hadded, hmem⟩
  have hnone := Graph.not_names_of_hidesNode hshown hhidden
  exact ⟨lines, hlines, (exists_drawn_iff hmem hnone id).trans (hadded.names_iff name)⟩

/-- A hidden edge is drawn exactly if a block draws it. -/
theorem runs_iff_of_hidesEdge {p : Project} {drawn : List Dot.Statement}
    (h : p.statements = .ok drawn) {source target : String}
    (hhidden : p.graph.hidesEdge source target = true) :
    ∃ lines, p.graph.dotLines = .ok lines ∧
      ((∃ st ∈ drawn, st.Runs source target) ↔ p.BlockEdge lines source target) := by
  rcases statements_cases h with ⟨shown, lines, added, hshown, hlines, hadded, hmem⟩
  have hnone := Graph.not_runs_of_hidesEdge hshown hhidden
  exact ⟨lines, hlines, (exists_drawn_iff hmem hnone id).trans (hadded.edges_iff source target)⟩

end Project

/-! ## What is hidden -/

theorem SortedSet.contains_insert {α : Type} [BEq α] [ReflBEq α] [Ranked α] (s : SortedSet α)
    (x : α) : (s.insert x).contains x = true := by
  by_cases h : s.contains x = true
  · simp [insert, h]
  · simp only [insert, h, Bool.false_eq_true, if_false]
    exact List.any_eq_true.2 ⟨x, mem_insertSorted.2 (Or.inl rfl), BEq.rfl⟩

/-- When a name was just hidden, statements about it are drawn exactly if it stands in the blocks
for implementations and page functions. When an edge was just hidden, statements for it are drawn
exactly if these blocks draw it. -/
theorem hidden_drawn_iff (s : Session) :
    (∀ name, ∃ t, (Operation.hideNode (.str name)).run s = (.ok (), t) ∧
      t.project.dotLines = t.project.statements.map Dot.linesOf ∧
      ∀ drawn, t.project.statements = .ok drawn → ∃ lines, t.project.graph.dotLines = .ok lines ∧
        ((∃ st ∈ drawn, st.Names name) ↔ t.project.BlockNames lines name)) ∧
    ∀ source target, ∃ t, (Operation.hideEdge (.str source) (.str target)).run s = (.ok (), t) ∧
      t.project.dotLines = t.project.statements.map Dot.linesOf ∧
      ∀ drawn, t.project.statements = .ok drawn → ∃ lines, t.project.graph.dotLines = .ok lines ∧
        ((∃ st ∈ drawn, st.Runs source target) ↔ t.project.BlockEdge lines source target) := by
  constructor
  · intro name
    refine ⟨_, rfl, Project.dotLines_eq _, fun drawn hdrawn => ?_⟩
    -- Hiding enters the name into the set that the drawing looks at.
    exact Project.names_iff_of_hidesNode hdrawn (SortedSet.contains_insert _ _)
  · intro source target
    refine ⟨_, rfl, Project.dotLines_eq _, fun drawn hdrawn => ?_⟩
    refine Project.runs_iff_of_hidesEdge hdrawn ?_
    -- An edge is hidden by its ends or by itself.
    exact Bool.or_eq_true_iff.2 (Or.inr (SortedSet.contains_insert _ _))

/-! ## A hidden page function -/

/-- No files, and a page function that calls a component. -/
def loginSession : Session :=
  { Session.ofDisk default with
    store := some ⟨functionColumns, [⟨.int 1, .str "login", .str "Auth", .null⟩], .numbers⟩ }

/-- Selects the page function, and hides its node and the edge to its component. -/
def hidingLogin : List Operation :=
  [.select (Value.ofNames ["html_1"]), .hideNode (.str "HTML_login"),
    .hideEdge (.str "HTML_login") (.str "Java_Auth")]

def loginNode : Dot.NodeStatement where
  name := "HTML_login"
  label := "login\\n(HTML Function)"
  color := "lightgreen"
  shape? := some "ellipse"

def loginEdge : Dot.EdgeStatement where
  source := "HTML_login"
  target := "Java_Auth"
  label := "calls"
  style := ", color=\"green\", style=\"bold\""

/-- The page function and its edge are drawn although they are hidden. -/
theorem hidden_login_drawn :
    ∃ t drawn, (do openProject .paged "."; analyze : Action Unit) loginSession = (.ok (), t) ∧
      (Operation.afterAll hidingLogin t).project.dotLines = .ok (Dot.linesOf drawn) ∧
      .node loginNode ∈ drawn ∧ .edge loginEdge ∈ drawn := by
  have hspelled : ∀ text, ∀ name ∈ Java.declaredTypes text, True ∧ True := by simp
  rcases @openProject_analyze_deep (fun _ => True) hspelled .paged (by decide) "." loginSession with
    ⟨_, t, hrun, -⟩
  -- That the analysis succeeds is known for every session; what is drawn then is evaluated.
  have ht : t = ((do openProject .paged "."; analyze : Action Unit) loginSession).2 := by rw [hrun]
  have hstatements : (Operation.afterAll hidingLogin t).project.statements.toOption.any
      (fun drawn => decide (.node loginNode ∈ drawn ∧ .edge loginEdge ∈ drawn)) = true := by
    rw [ht]
    decide +kernel
  rcases exists_of_toOption_any hstatements with ⟨drawn, hdrawn, hmem⟩
  refine ⟨t, drawn, hrun, ?_, of_decide_eq_true hmem⟩
  rw [Project.dotLines_eq, hdrawn]
  rfl

end JavaDeps
