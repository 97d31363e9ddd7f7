import JavaDeps.Proofs.Analysis.Selected
import JavaDeps.Proofs.Edits.Deleted

/-!
# How an added node is shown

A node that is added by hand is entered under the name that is given for it. The drawing and the
description look nodes up under the names by which they show them, and show a name that is written
like a path by its last part. Such a node is shown under another name, without its classes and its
colour.
-/

namespace JavaDeps

/-- The statement that shows an added node with its classes, or with a note if it has none. -/
def Dot.addedStatement (name : String) (classes : List String) (color : Value) : NodeStatement where
  name := name
  label := name ++ "\\n(" ++ (if classes = [] then "Custom Node" else Text.join ", " classes) ++ ")"
  color := color.display

namespace Graph

def adding (g : Graph) (name : String) (classes : List String) (color : Value) : Graph :=
  { g with customNodes := g.customNodes.set (.str name) ⟨Value.ofNames classes, color⟩ }

/-- The node is drawn under its name, with its classes and its colour. -/
def DrawsAdded (g : Graph) (name : String) (classes : List String) (color : Value) : Prop :=
  ∃ drawn, g.statements = .ok drawn ∧ g.dotLines = .ok (Dot.linesOf drawn) ∧
    .node (Dot.addedStatement name classes color) ∈ drawn

/-- The node is described under its name, as an added one with its classes. -/
def DescribesAdded (g : Graph) (directory : String) (order : List Node) (name : String)
    (classes : List String) : Prop :=
  ∃ files data info, g.fileInfos order = .ok files ∧ g.describe directory order = .ok data ∧
    data.field? "files" = some (.obj (files.mapValues FileInfo.toValue).entries) ∧
    files.get? name = some info ∧ info.isCustom = true ∧ info.classes = classes.map Value.str

variable (g : Graph) {name : String} (classes : List String) (color : Value) {n : Node}

theorem addNode_eq_adding (hname : name ≠ "") :
    g.addNode (.str name) (Value.ofNames classes) color =
      (.ok true, g.adding name classes color) := by
  have htruthy : (Value.str name).isTruthy = true := by
    simpa [Value.isTruthy, Atom.isTruthy] using hname
  unfold addNode
  rw [if_pos htruthy]
  cases classes <;> rfl

theorem get?_adding (name : String) :
    (g.adding name classes color).customNodes.get? (.str name) =
      some ⟨Value.ofNames classes, color⟩ := by
  rw [adding, Table.get?_set, if_pos BEq.rfl]

/-! ## What shows a node of the name -/

/-- The node is drawn under its name, with what was given for it. -/
theorem nodeStatement_adding (hn : n.simpleName = name) :
    Dot.nodeStatement (g.adding name classes color) n =
      .ok (Dot.addedStatement name classes color) := by
  have hdetails : Dot.nodeDetails (g.adding name classes color) n name =
      .ok (if classes = [] then "Custom Node" else Text.join ", " classes, color.display) := by
    unfold Dot.nodeDetails
    rw [get?_adding]
    cases classes with
    | nil => rfl
    | cons first rest =>
      simp only [texts_ofNames]
      rfl
  simp only [Dot.nodeStatement, hn, hdetails]
  rfl

theorem fileInfo_adding (hn : n.simpleName = name) {info : FileInfo}
    (h : (g.adding name classes color).fileInfo n = .ok info) :
    info.isCustom = true ∧ info.classes = classes.map Value.str := by
  have hclasses : (g.adding name classes color).listedClasses n =
      .ok (classes.map Value.str, true) := by
    unfold listedClasses
    rw [hn, get?_adding]
    rfl
  rcases bind_eq_ok h with ⟨listed, hlisted, h⟩
  cases hclasses.symm.trans hlisted
  rcases bind_eq_ok h with ⟨outgoing, -, h⟩
  rcases bind_eq_ok h with ⟨incoming, -, h⟩
  cases h
  exact ⟨rfl, rfl⟩

/-- The node is drawn exactly if there is a drawing and the name is that of a node. -/
theorem drawsAdded_iff (hshown : g.hidesNode name = false) :
    (g.adding name classes color).DrawsAdded name classes color ↔
      (g.adding name classes color).Drawable ∧
        ∃ n ∈ (g.adding name classes color).nodes.toList, n.simpleName = name := by
  rw [← exists_statements_iff]
  constructor
  · rintro ⟨drawn, hdrawn, -, hst⟩
    rcases mem_statements hdrawn with ⟨nodes, _, hnodes, -, hnode, -⟩
    exact ⟨⟨drawn, hdrawn⟩, ((drawn_name_iff hnodes).1 ⟨_, (hnode _).1 hst, rfl⟩).1⟩
  · rintro ⟨⟨drawn, hdrawn⟩, n, hn, hname⟩
    rcases mem_statements hdrawn with ⟨nodes, _, hnodes, -, hnode, -⟩
    have hlisted : n ∈ (g.adding name classes color).nodes.toList.filter
        (fun n => !g.hidesNode n.simpleName) := by
      refine List.mem_filter.2 ⟨hn, ?_⟩
      rw [hname, hshown]
      rfl
    refine ⟨drawn, hdrawn, dotLines_of_statements hdrawn, (hnode _).2 ?_⟩
    exact (mem_mapM_iff hnodes).2 ⟨n, hlisted, nodeStatement_adding g classes color hname⟩

/-- The node is described exactly if there is a description and the name is that of a node. -/
theorem describesAdded_iff (name directory : String) {order : List Node}
    (horder : (g.adding name classes color).Orders order) :
    (g.adding name classes color).DescribesAdded directory order name classes ↔
      (∃ data, (g.adding name classes color).describe directory order = .ok data) ∧
        ∃ n ∈ (g.adding name classes color).describedNodes.toList, n.simpleName = name := by
  simp only [← horder.mem_iff]
  constructor
  · rintro ⟨files, data, info, hfiles, hdata, -, hinfo, -⟩
    have hkey : name ∈ files.keys := List.mem_map_of_mem (Table.mem_entries_of_get? hinfo)
    exact ⟨⟨data, hdata⟩, (mem_keys_fileInfos hfiles).1 hkey⟩
  · rintro ⟨⟨data, hdata⟩, n, hn, hname⟩
    rcases files_of_describe hdata with ⟨files, hfiles, hfield⟩
    -- Of the nodes of this name the last one is described, and it is as good as any other.
    rcases exists_lastWith hn hname with ⟨last, hlast⟩
    rcases exists_fileInfo hfiles hlast with ⟨info, hinfo, hget⟩
    have hadded := fileInfo_adding g classes color (mem_of_lastWith hlast).2 hinfo
    exact ⟨files, data, info, hfiles, hdata, hfield, hget, hadded⟩

/-! ## Names that are shown as they are -/

theorem isNode_adding (name : String) :
    (g.adding name classes color).IsNode (.named (.str name)) := by
  rcases Table.entry_of_get? (g.get?_adding classes color name) with ⟨key, hentry, hkey⟩
  cases Atom.str_beq.1 (BEq.symm hkey)
  exact List.mem_append_right _ (List.mem_map_of_mem (List.mem_map_of_mem hentry))

/-- A name that is not written like a path is that of a node that is drawn and described. -/
theorem exists_node_adding (hslash : '/' ∉ name.toList) (hback : '\\' ∉ name.toList) :
    (∃ n ∈ (g.adding name classes color).nodes.toList, n.simpleName = name) ∧
      ∃ n ∈ (g.adding name classes color).describedNodes.toList, n.simpleName = name := by
  have hsimple : (Node.named (.str name)).simpleName = name := by
    simp [Node.simpleName, hslash, hback]
  have hlisted : ∀ nodes : List Node, .named (.str name) ∈ nodes →
      ∃ n ∈ (SortedSet.ofList nodes).toList, n.simpleName = name := by
    intro nodes hmem
    rcases SortedSet.exists_mem_ofList hmem with ⟨n, hn, hsame⟩
    cases Node.exact_text name n hsame
    exact ⟨_, hn, hsimple⟩
  have hnode := g.isNode_adding classes color name
  exact ⟨hlisted _ hnode, hlisted _ (isNode_iff.2 hnode)⟩

variable {g}

/-- A node with texts as its classes keeps all labels and classes texts. -/
theorem Worded.adding (h : g.Worded) (name : String) : (g.adding name classes color).Worded where
  labels source target v hentry := by
    refine h.labels source target v ?_
    cases hentry with
    | call hrow hlabels => exact .call hrow hlabels
    | custom hrow hlabels => exact .custom hrow hlabels
  classes e he := by
    rcases Table.value_of_mem_set he with hvalue | he
    · rw [hvalue]
      exact Value.ofNames_isTexts classes
    · exact h.classes e he

end Graph

/-- Adding a node under a name that is not hidden succeeds. It is drawn as it was added exactly if
the graph can be drawn and one of its nodes is shown under this name, and it is described as it was
added exactly if the graph can be described and one of the described nodes is shown under this name,
in whatever order the nodes are gone through. Both are so in a graph whose labels are texts if the
name is not written like a path. -/
theorem added_node_shown_iff (g : Graph) {name : String} (hname : name ≠ "")
    (hshown : g.hidesNode name = false) (classes : List String) (color : Value) :
    ∃ g', g.addNode (.str name) (Value.ofNames classes) color = (.ok true, g') ∧
      (g'.DrawsAdded name classes color ↔
        g'.Drawable ∧ ∃ n ∈ g'.nodes.toList, n.simpleName = name) ∧
      (∀ directory order, g'.Orders order → (g'.DescribesAdded directory order name classes ↔
        (∃ data, g'.describe directory order = .ok data) ∧
          ∃ n ∈ g'.describedNodes.toList, n.simpleName = name)) ∧
      (g.Worded → '/' ∉ name.toList → '\\' ∉ name.toList →
        g'.DrawsAdded name classes color ∧
          ∀ directory order, g'.Orders order → g'.DescribesAdded directory order name classes) := by
  have hdraws := g.drawsAdded_iff classes color hshown
  refine ⟨_, g.addNode_eq_adding classes color hname, hdraws,
    fun directory order => g.describesAdded_iff classes color name directory, ?_⟩
  intro hworded hslash hback
  have hadded := hworded.adding classes color name
  rcases g.exists_node_adding classes color hslash hback with ⟨hdrawn, hdescribed⟩
  refine ⟨hdraws.2 ⟨hadded.drawable, hdrawn⟩, fun directory order horder => ?_⟩
  rcases hadded.simple.fileInfos_ok order with ⟨files, hfiles⟩
  rcases hadded.simple.describe_ok hfiles directory with ⟨data, hdata, -⟩
  exact (g.describesAdded_iff classes color name directory horder).2 ⟨⟨data, hdata⟩, hdescribed⟩

/-- A node is added over two files of its name, and both files are shown as this node. -/
theorem added_over_files :
    "B" ≠ "" ∧ mixedGraph.hidesNode "B" = false ∧
    ∃ g', mixedGraph.addNode (.str "B") (Value.ofNames ["Order", "Item"]) (.str "red") =
        (.ok true, g') ∧
      g'.DrawsAdded "B" ["Order", "Item"] (.str "red") ∧
      ∀ directory order, g'.Orders order →
        g'.DescribesAdded directory order "B" ["Order", "Item"] := by
  have hname : "B" ≠ "" := by decide
  have hshown : mixedGraph.hidesNode "B" = false := by decide +kernel
  rcases added_node_shown_iff mixedGraph hname hshown ["Order", "Item"] (.str "red") with
    ⟨g', hadd, -, -, hboth⟩
  exact ⟨hname, hshown, g', hadd, hboth mixedGraph_worded (by decide) (by decide)⟩

/-- The graph of no files, with a node whose name is written like a path. -/
def ordersGraph : Graph :=
  (Graph.ofRoot (SourcePath.ofText ".")).adding "GET /api/orders" ["Order"] (.str "red")

/-- A node with a name like a path is neither drawn nor described under it. What is drawn is a node
under the last part of the name, without its classes and its colour. -/
theorem added_path_misnamed :
    ∃ t g' drawn,
      (do openProject .plain "."; analyze : Action Unit) (Session.ofDisk default) = (.ok (), t) ∧
      t.project.graph.hidesNode "GET /api/orders" = false ∧
      t.project.graph.addNode (.str "GET /api/orders") (Value.ofNames ["Order"]) (.str "red") =
        (.ok true, g') ∧
      ¬ g'.DrawsAdded "GET /api/orders" ["Order"] (.str "red") ∧
      (∀ directory order, g'.Orders order →
        ¬ g'.DescribesAdded directory order "GET /api/orders" ["Order"]) ∧
      g'.statements = .ok drawn ∧
      .node ⟨"orders", "orders\\n(Unknown)", defaultColor, none⟩ ∈ drawn := by
  rcases openProject_analyze_starts .plain "." (Session.ofDisk default) with ⟨_, t, hrun, -⟩
  have hgraph : t.project.graph = Graph.ofRoot (SourcePath.ofText ".") :=
    (graph_of_analyze_plain hrun).trans rfl
  have hadd : t.project.graph.addNode (.str "GET /api/orders")
      (Value.ofNames ["Order"]) (.str "red") =
      (.ok true, ordersGraph) := by
    rw [hgraph]
    exact Graph.addNode_eq_adding _ _ _ (by decide)
  have hnames : (∀ n ∈ ordersGraph.nodes.toList, n.simpleName ≠ "GET /api/orders") ∧
      ∀ n ∈ ordersGraph.describedNodes.toList, n.simpleName ≠ "GET /api/orders" := by
    decide +kernel
  have hdrawn : ordersGraph.statements.toOption.any (fun drawn =>
      decide (.node ⟨"orders", "orders\\n(Unknown)", defaultColor, none⟩ ∈ drawn)) = true := by
    decide +kernel
  rcases exists_of_toOption_any hdrawn with ⟨drawn, hstatements, hmem⟩
  refine ⟨t, ordersGraph, drawn, hrun, ?_, hadd, fun hdraws => ?_,
    fun directory order horder hdescribes => ?_, hstatements, of_decide_eq_true hmem⟩
  · rw [hgraph]
    rfl
  · rcases (Graph.drawsAdded_iff _ _ _ rfl).1 hdraws with ⟨-, n, hn, hname⟩
    exact hnames.1 n hn hname
  · rcases (Graph.describesAdded_iff _ _ _ _ directory horder).1 hdescribes with ⟨-, n, hn, hname⟩
    exact hnames.2 n hn hname

end JavaDeps
