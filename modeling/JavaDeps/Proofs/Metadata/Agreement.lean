import JavaDeps.Proofs.Dot.Hidden
import JavaDeps.Proofs.Metadata.Worded

/-!
# The drawing and the description agree

A graph is drawn, and it is described by a record. Both go through its edges and added nodes on
their own. They show the same names and edges, if nodes that compare as equal have one name: a set
holds one of them only, and the two do not enter them in the same order.
-/

namespace JavaDeps

/-! ## Names of nodes -/

/-- What equal elements share is found in the set as it is in the list. -/
theorem SortedSet.exists_mem_ofList_iff {α β : Type} [BEq α] [EquivBEq α] [Ranked α] {f : α → β}
    {xs : List α} (h : ∀ x ∈ xs, ∀ y ∈ xs, (x == y) = true → f x = f y) {b : β} :
    (∃ x ∈ (ofList xs).toList, f x = b) ↔ ∃ x ∈ xs, f x = b := by
  constructor
  · rintro ⟨x, hx, rfl⟩
    exact ⟨x, mem_of_mem_ofList hx, rfl⟩
  · rintro ⟨x, hx, rfl⟩
    rcases exists_mem_ofList hx with ⟨y, hy, hyx⟩
    exact ⟨y, hy, h y (mem_of_mem_ofList hy) x hx hyx⟩

namespace Graph

/-- The node is an end of an edge, or was added by hand. -/
def IsNode (g : Graph) (n : Node) : Prop := n ∈ g.edgeEnds ++ g.customNodes.keys.map .named

/-- Nodes that compare as equal have one simple name. -/
def OneName (g : Graph) : Prop :=
  ∀ m n, g.IsNode m → g.IsNode n → (m == n) = true → m.simpleName = n.simpleName

variable {g : Graph}

/-- Sources before targets or edge by edge, the ends of the edges are the same. -/
theorem isNode_iff {n : Node} :
    n ∈ g.calls.keys.map .file ++ g.calls.values.flatMap (fun row => row.keys.map .file)
      ++ g.customEdges.keys ++ g.customEdges.values.flatMap Table.keys
      ++ g.customNodes.keys.map .named ↔ g.IsNode n := by
  have hends : ∀ {α : Type} [BEq α] (t : Table α (Targets α)) (f : α → Node),
      (n ∈ t.entries.flatMap (fun e => f e.1 :: e.2.keys.map f) ↔
        n ∈ t.keys.map f ∨ n ∈ t.values.flatMap (fun row => row.keys.map f)) := by
    intro α _ t f
    rw [List.mem_flatMap, List.mem_flatMap, List.mem_map]
    constructor
    · rintro ⟨e, he, hn⟩
      rcases List.mem_cons.1 hn with rfl | hn
      · exact Or.inl ⟨e.1, List.mem_map_of_mem he, rfl⟩
      · exact Or.inr ⟨e.2, List.mem_map_of_mem he, hn⟩
    · rintro (⟨k, hk, rfl⟩ | ⟨row, hrow, hn⟩)
      · rcases List.mem_map.1 hk with ⟨e, he, rfl⟩
        exact ⟨e, he, List.mem_cons_self⟩
      · rcases List.mem_map.1 hrow with ⟨e, he, rfl⟩
        exact ⟨e, he, List.mem_cons_of_mem _ hn⟩
  have hcalls := hends g.calls .file
  have hcustom := hends g.customEdges id
  simp only [List.map_id_fun, id_eq] at hcustom
  unfold IsNode edgeEnds
  simp only [List.mem_append, hcalls, hcustom, or_assoc]

theorem OneName.describedNodes (h : g.OneName) {name : String} :
    (∃ n ∈ g.describedNodes.toList, n.simpleName = name) ↔
      ∃ n ∈ g.nodes.toList, n.simpleName = name := by
  have hdescribed := SortedSet.exists_mem_ofList_iff (b := name)
    (fun m hm n hn => h m n (isNode_iff.1 hm) (isNode_iff.1 hn))
  have hdrawn := SortedSet.exists_mem_ofList_iff (b := name) (fun m hm n hn => h m n hm hn)
  refine hdescribed.trans (Iff.trans ?_ hdrawn.symm)
  exact exists_congr (fun n => and_congr_left (fun _ => isNode_iff))

theorem Entry.isNode {source target : Node} {v : Value} (h : g.Entry source target v) :
    g.IsNode source ∧ g.IsNode target := by
  unfold IsNode edgeEnds
  simp only [List.mem_append]
  cases h with
  | call hrow hlabels =>
    have htarget :=
      List.mem_map_of_mem (f := Node.file) (List.mem_map_of_mem (f := Prod.fst) hlabels)
    exact ⟨Or.inl (Or.inl (List.mem_flatMap.2 ⟨_, hrow, List.mem_cons_self⟩)),
      Or.inl (Or.inl (List.mem_flatMap.2 ⟨_, hrow, List.mem_cons_of_mem _ htarget⟩))⟩
  | custom hrow hlabels =>
    have htarget := List.mem_map_of_mem (f := Prod.fst) hlabels
    exact ⟨Or.inl (Or.inr (List.mem_flatMap.2 ⟨_, hrow, List.mem_cons_self⟩)),
      Or.inl (Or.inr (List.mem_flatMap.2 ⟨_, hrow, List.mem_cons_of_mem _ htarget⟩))⟩

/-- Files and texts compare as equal only to themselves. -/
theorem oneName_of_texts
    (h : ∀ n, g.IsNode n → (∃ p, n = .file p) ∨ ∃ s, n = .named (.str s)) : g.OneName := by
  intro m n hm hn hmn
  rcases h m hm with ⟨p, rfl⟩ | ⟨s, rfl⟩
  · rw [Node.file_beq.1 hmn]
  · rcases h n hn with ⟨p, rfl⟩ | ⟨t, rfl⟩
    · cases hmn
    · have halike : (Value.str s).Alike (.str t) := Value.atom_alike.2 ⟨.str t, rfl, hmn⟩
      rw [Value.atom.inj (Value.str_alike.1 halike)]

/-- The node that is described is one of the graph, with this name. -/
theorem Orders.described_isNode {order : List Node} (horder : g.Orders order) {name : String}
    {n : Node} (h : described order name = some n) : g.IsNode n ∧ n.simpleName = name := by
  rcases mem_of_lastWith h with ⟨hmem, hname⟩
  exact ⟨isNode_iff.1 (SortedSet.mem_of_mem_ofList (horder.mem_iff.1 hmem)), hname⟩

end Graph

/-! ## What is drawn -/

namespace Graph

variable {g : Graph}

/-- A drawing consists of nodes and edges, besides lines. -/
theorem mem_statements {drawn : List Dot.Statement} (h : g.statements = .ok drawn) :
    ∃ nodes edges, g.nodeStatements = .ok nodes ∧ g.edgeStatements = .ok edges ∧
      (∀ n, .node n ∈ drawn ↔ n ∈ nodes) ∧ ∀ e, .edge e ∈ drawn ↔ e ∈ edges := by
  rcases bind_eq_ok h with ⟨nodes, hnodes, h⟩
  rcases bind_eq_ok h with ⟨edges, hedges, h⟩
  cases h
  exact ⟨nodes, edges, hnodes, hedges, by simp [Dot.opening, Dot.gap, Dot.remark],
    by simp [Dot.opening, Dot.gap, Dot.remark]⟩

/-- The names that are drawn are those of the nodes, without the hidden ones. -/
theorem drawn_name_iff {nodes : List Dot.NodeStatement} (h : g.nodeStatements = .ok nodes)
    {name : String} : (∃ n ∈ nodes, n.name = name) ↔
      (∃ n ∈ g.nodes.toList, n.simpleName = name) ∧ g.hidesNode name = false := by
  have hnamed : ∀ {n st}, Dot.nodeStatement g n = .ok st → st.name = n.simpleName := by
    intro n st hst
    rcases bind_eq_ok hst with ⟨details, -, hst⟩
    cases hst
    rfl
  constructor
  · rintro ⟨st, hst, rfl⟩
    rcases (mem_mapM_iff h).1 hst with ⟨n, hn, hstatement⟩
    exact ⟨⟨n, (List.mem_filter.1 hn).1, (hnamed hstatement).symm⟩,
      hidesNode_of_mem_nodeStatements h hst⟩
  · rintro ⟨⟨n, hn, rfl⟩, hshown⟩
    have hmem : n ∈ g.nodes.toList.filter (fun n => !g.hidesNode n.simpleName) :=
      List.mem_filter.2 ⟨hn, by simp [hshown]⟩
    rcases exists_mapM_iff.1 ⟨nodes, h⟩ n hmem with ⟨st, hst⟩
    exact ⟨st, (mem_mapM_iff h).2 ⟨n, hmem, hst⟩, hnamed hst⟩

/-- An edge between two names is drawn unless it is hidden. -/
theorem Worded.drawn_edge_iff (hg : g.Worded) {edges : List Dot.EdgeStatement}
    (h : g.edgeStatements = .ok edges) {a b : String} {labels : Value} (hruns : g.Runs a b labels) :
    (∃ e ∈ edges, e.source = a ∧ e.target = b) ↔ g.hidesEdge a b = false := by
  constructor
  · rintro ⟨e, he, rfl, rfl⟩
    exact hidesEdge_of_mem_edgeStatements h he
  · intro hshown
    rcases bind_eq_ok h with ⟨calls, hcalls, h⟩
    rcases bind_eq_ok h with ⟨custom, hcustom, h⟩
    cases h
    -- Calls and added edges are drawn by the same loop.
    have hloop : ∀ {general style : String} {listed : List (String × String × Value)}
        {drawn : List Dot.EdgeStatement}, Dot.edgeStatementsOf g general style listed = .ok drawn →
        (a, b, labels) ∈ listed → ∃ e ∈ drawn, e.source = a ∧ e.target = b := by
      intro general style listed drawn hdrawn hlisted
      rcases hruns with ⟨source, target, hentry, -, -⟩
      rcases Dot.exists_edgeStatement_iff.2 (fun _ => hg.labels _ _ _ hentry) with ⟨st, hst⟩
      have hmem : (a, b, labels) ∈ listed.filter (fun e => !g.hidesEdge e.1 e.2.1) :=
        List.mem_filter.2 ⟨hlisted, by simp [hshown]⟩
      exact ⟨st, (mem_mapM_iff hdrawn).2 ⟨_, hmem, hst⟩, ends_of_edgeStatement hst⟩
    rcases runs_iff.1 hruns with hlisted | hlisted
    · rcases hloop hcalls hlisted with ⟨e, he, hends⟩
      exact ⟨e, List.mem_append_left _ he, hends⟩
    · rcases hloop hcustom hlisted with ⟨e, he, hends⟩
      exact ⟨e, List.mem_append_right _ he, hends⟩

end Graph

/-! ## What is listed -/

/-- Labels are listed for the calls from one name to another, with the first name as outgoing or
with the second one as incoming calls. -/
def ListsCalls (files : Table String FileInfo) (a b : String) (listed : List Value) : Prop :=
  (∃ info, files.get? a = some info ∧ info.outgoing.get? b = some listed) ∨
    ∃ info, files.get? b = some info ∧ info.incoming.get? a = some listed

/-- A gathered label is one of a call or of an added edge. -/
theorem Gathers.exists_mem {calls custom : List (String × Value)} {name : String} {label : Value}
    (h : Gathers calls custom name label) :
    ∃ e ∈ calls ++ custom, e.1 = name ∧ e.2.Lists label := by
  rcases h with ⟨e, hlast, hlists⟩ | ⟨e, he, hname, hlists⟩
  · rcases mem_of_lastWith hlast with ⟨he, hname⟩
    exact ⟨e, List.mem_append_left _ he, hname, hlists⟩
  · exact ⟨e, List.mem_append_right _ he, hname, hlists⟩

/-- Every name that is gathered, and every label with it, comes from one of the edges. -/
theorem Gathered.exists_edge {calls custom : List (String × Value)} {c : Calls}
    (h : Gathered calls custom c) {name : String} {listed : List Value}
    (hlisted : c.get? name = some listed) :
    (∃ e ∈ calls ++ custom, e.1 = name) ∧
      ∀ item ∈ listed, ∃ e ∈ calls ++ custom, e.1 = name ∧ e.2.Lists item := by
  constructor
  · exact (h.mem_keys name).1 (List.mem_map_of_mem (Table.mem_entries_of_get? hlisted))
  · intro item hitem
    have hlists : c.Lists name item := ⟨listed, hlisted, item, hitem, Or.inl rfl⟩
    exact ((h.lists_iff name item).1 hlists).exists_mem

namespace Graph

variable {g : Graph}

/-- Some edge between two names has a label. -/
def Carries (g : Graph) (a b : String) (label : Value) : Prop :=
  ∃ labels items, g.Runs a b labels ∧ labels.elements = .ok items ∧ label ∈ items

/-- Where labels are listed there is an edge, and edges have all the labels that are listed. -/
theorem OneName.runs_of_listsCalls (hone : g.OneName) {order : List Node}
    (horder : g.Orders order) {files : Table String FileInfo}
    (hfiles : g.fileInfos order = .ok files) {a b : String} {listed : List Value}
    (hlisted : ListsCalls files a b listed) :
    (∃ labels, g.Runs a b labels) ∧
      ∀ item ∈ listed, ∃ labels, g.Runs a b labels ∧ labels.Lists item := by
  rcases hlisted with ⟨info, hinfo, hget⟩ | ⟨info, hinfo, hget⟩
  · rcases (get?_fileInfos hfiles).1 hinfo with ⟨n, hn, hdescription⟩
    rcases horder.described_isNode hn with ⟨hnode, rfl⟩
    -- An edge that is gathered starts at the node or at an equal one, which has the same name.
    have hfrom : ∀ e ∈ g.callsFrom n ++ g.customFrom n, g.Runs n.simpleName e.1 e.2 := by
      intro e he
      rcases entry_of_mem_from he with ⟨source, target, hentry, hsource, htarget⟩
      exact ⟨source, target, hentry, hone _ _ hentry.isNode.1 hnode hsource, htarget⟩
    rcases (fileInfo_gathered hdescription).1.exists_edge hget with ⟨⟨e, he, rfl⟩, hitems⟩
    refine ⟨⟨e.2, hfrom e he⟩, fun item hitem => ?_⟩
    rcases hitems item hitem with ⟨e', he', hname, hlists⟩
    exact ⟨e'.2, hname ▸ hfrom e' he', hlists⟩
  · rcases (get?_fileInfos hfiles).1 hinfo with ⟨n, hn, hdescription⟩
    rcases horder.described_isNode hn with ⟨hnode, rfl⟩
    have hto : ∀ e ∈ g.callsTo n ++ g.customTo n, g.Runs e.1 n.simpleName e.2 := by
      intro e he
      rcases entry_of_mem_to he with ⟨source, target, hentry, htarget, hsource⟩
      exact ⟨source, target, hentry, hsource, hone _ _ hentry.isNode.2 hnode htarget⟩
    rcases (fileInfo_gathered hdescription).2.exists_edge hget with ⟨⟨e, he, rfl⟩, hitems⟩
    refine ⟨⟨e.2, hto e he⟩, fun item hitem => ?_⟩
    rcases hitems item hitem with ⟨e', he', hname, hlists⟩
    exact ⟨e'.2, hname ▸ hto e' he', hlists⟩

/-- Among texts, a label is listed only as itself. -/
theorem Worded.carries (hg : g.Worded) {a b : String} {labels label : Value}
    (hruns : g.Runs a b labels) (hlists : labels.Lists label) : g.Carries a b label := by
  rcases hruns with ⟨source, target, hentry, hnames⟩
  rcases hg.labels _ _ _ hentry with ⟨items, hitems, htexts⟩
  rcases hlists with ⟨found, hfound, item, hitem, halike⟩
  rw [Value.labelList_of_elements hitems] at hfound
  cases hfound
  rcases htexts item hitem with ⟨s, rfl⟩
  rw [Value.str_alike.1 halike]
  exact ⟨labels, items, ⟨source, target, hentry, hnames⟩, hitems, hitem⟩

/-! ## Agreement -/

/-- A drawing and descriptions agree: the names of the drawing are those of the descriptions that
are not hidden, calls that are listed are drawn unless they are hidden, and edges of the graph have
all the labels that are listed. -/
structure Agree (g : Graph) (drawn : List Dot.Statement) (files : Table String FileInfo) :
    Prop where
  name_iff : ∀ name, (∃ n, .node n ∈ drawn ∧ n.name = name) ↔
    name ∈ files.keys ∧ g.hidesNode name = false
  edge_iff : ∀ a b listed, ListsCalls files a b listed →
    ((∃ e, .edge e ∈ drawn ∧ e.source = a ∧ e.target = b) ↔ g.hidesEdge a b = false)
  carries : ∀ a b listed, ListsCalls files a b listed → ∀ item ∈ listed, g.Carries a b item

/-- Drawing and description agree if all labels are texts and equal nodes have one name. -/
theorem Worded.agree (hg : g.Worded) (hone : g.OneName) {drawn : List Dot.Statement}
    (hdrawn : g.statements = .ok drawn) {order : List Node} (horder : g.Orders order)
    {files : Table String FileInfo} (hfiles : g.fileInfos order = .ok files) :
    g.Agree drawn files := by
  rcases mem_statements hdrawn with ⟨nodes, edges, hnodes, hedges, hnode, hedge⟩
  constructor
  · intro name
    simp only [hnode]
    rw [drawn_name_iff hnodes, mem_keys_fileInfos hfiles, ← hone.describedNodes]
    simp only [horder.mem_iff]
  · intro a b listed hlisted
    rcases (hone.runs_of_listsCalls horder hfiles hlisted).1 with ⟨labels, hruns⟩
    simp only [hedge]
    exact hg.drawn_edge_iff hedges hruns
  · intro a b listed hlisted item hitem
    rcases (hone.runs_of_listsCalls horder hfiles hlisted).2 item hitem with ⟨labels, hruns, hlists⟩
    exact hg.carries hruns hlists

end Graph

/-- A graph whose labels are texts, and in which nodes that compare as equal have one name, is drawn
and described, in whatever order its nodes are gone through, and the two agree. -/
theorem drawing_agrees_with_description (g : Graph) (hworded : g.Worded) (hone : g.OneName)
    (directory : String) (order : List Node) (horder : g.Orders order) :
    ∃ drawn files data, g.statements = .ok drawn ∧ g.dotLines = .ok (Dot.linesOf drawn) ∧
      g.fileInfos order = .ok files ∧ g.describe directory order = .ok data ∧
      data.field? "files" = some (.obj (files.mapValues FileInfo.toValue).entries) ∧
      g.Agree drawn files := by
  rcases hworded.statements_ok with ⟨drawn, hdrawn⟩
  rcases hworded.simple.fileInfos_ok order with ⟨files, hfiles⟩
  rcases hworded.simple.describe_ok hfiles directory with ⟨data, hdata, hfield⟩
  have hlines : g.dotLines = .ok (Dot.linesOf drawn) := by
    unfold Graph.dotLines
    rw [hdrawn]
    rfl
  exact ⟨drawn, files, data, hdrawn, hlines, hfiles, hdata, hfield,
    hworded.agree hone hdrawn horder hfiles⟩

def twinCalls : Targets SourcePath :=
  .mk [(⟨"", ["p", "B.java"]⟩, .ofNames ["m"]), (⟨"", ["q", "B.java"]⟩, .ofNames ["n"])]

/-- A file with these calls, and an edge from a hidden node that was added. -/
def mixedGraph : Graph where
  root := SourcePath.ofText "."
  calls := .mk [(⟨"", ["A.java"]⟩, twinCalls)]
  hiddenNodes := .mk [.str "X"]
  customNodes := .mk [(.str "X", ⟨Value.ofNames ["K"], .str defaultColor⟩)]
  customEdges := .mk [(.named (.str "X"), .mk [(.file ⟨"", ["A.java"]⟩, .ofNames ["k"])])]

theorem mixedGraph_worded : mixedGraph.Worded := by
  constructor
  · intro source target v hentry
    cases hentry with
    | call hrow hlabels =>
      cases List.mem_singleton.1 hrow
      rcases List.mem_cons.1 hlabels with h | h
      · cases h
        exact Value.ofNames_isTexts ["m"]
      · cases List.mem_singleton.1 h
        exact Value.ofNames_isTexts ["n"]
    | custom hrow hlabels =>
      cases List.mem_singleton.1 hrow
      cases List.mem_singleton.1 hlabels
      exact Value.ofNames_isTexts ["k"]
  · intro e he
    cases List.mem_singleton.1 he
    exact Value.ofNames_isTexts ["K"]

theorem mixedGraph_oneName : mixedGraph.OneName := by
  refine Graph.oneName_of_texts (fun n hn => ?_)
  have hends : n ∈ [Node.file ⟨"", ["A.java"]⟩, .file ⟨"", ["p", "B.java"]⟩,
      .file ⟨"", ["q", "B.java"]⟩, .named (.str "X"), .file ⟨"", ["A.java"]⟩, .named (.str "X")] :=
        hn
  cases n with
  | file p => exact Or.inl ⟨p, rfl⟩
  | named a =>
    have ha : a = .str "X" := by simpa using hends
    exact Or.inr ⟨"X", by rw [ha]⟩

theorem mixedGraph_agrees :
    mixedGraph.Worded ∧ mixedGraph.OneName ∧
      mixedGraph.Orders mixedGraph.describedNodes.toList.reverse ∧
      ∃ drawn files data, mixedGraph.statements = .ok drawn ∧
        mixedGraph.dotLines = .ok (Dot.linesOf drawn) ∧
        mixedGraph.fileInfos mixedGraph.describedNodes.toList.reverse = .ok files ∧
        mixedGraph.describe "/" mixedGraph.describedNodes.toList.reverse = .ok data ∧
        data.field? "files" = some (.obj (files.mapValues FileInfo.toValue).entries) ∧
        mixedGraph.Agree drawn files :=
  ⟨mixedGraph_worded, mixedGraph_oneName, List.reverse_perm _,
    drawing_agrees_with_description mixedGraph mixedGraph_worded mixedGraph_oneName "/" _
      (List.reverse_perm _)⟩

/-! ## Nodes that compare as equal -/

/-- Adds a truth value as a node, and edges that name it as a truth value and as a number. -/
def truthOperations : List Operation :=
  [.addNode (.bool true) .null (.str defaultColor), .addNode (.str "X") .null (.str defaultColor),
    .addEdge (.str "X") (.bool true) .null, .addEdge (.int 1) (.str "X") .null]

def truthGraph : Graph where
  root := SourcePath.ofText "."
  customNodes := .mk [(.bool true, ⟨.list [], .str defaultColor⟩),
    (.str "X", ⟨.list [], .str defaultColor⟩)]
  customEdges := .mk [(.named (.str "X"), .mk [(.named (.bool true), .none)]),
    (.named (.int 1), .mk [(.named (.str "X"), .none)])]

theorem truthGraph_worded : truthGraph.Worded := by
  constructor
  · intro source target v hentry
    cases hentry with
    | call hrow hlabels => cases hrow
    | custom hrow hlabels =>
      rcases List.mem_cons.1 hrow with h | h
      · cases h
        cases List.mem_singleton.1 hlabels
        exact Value.ofNames_isTexts []
      · cases List.mem_singleton.1 h
        cases List.mem_singleton.1 hlabels
        exact Value.ofNames_isTexts []
  · intro e he
    rcases List.mem_cons.1 he with rfl | h
    · exact Value.ofNames_isTexts []
    · cases List.mem_singleton.1 h
      exact Value.ofNames_isTexts []

/-- The truth value is drawn under its own name, but described under that of the number, in whatever
order the nodes are gone through. -/
theorem equal_nodes_disagree :
    ∃ t drawn,
      (do openProject .plain "."; analyze : Action Unit) (Session.ofDisk default) = (.ok (), t) ∧
      (Operation.afterAll truthOperations t).project.graph = truthGraph ∧ truthGraph.Worded ∧
      truthGraph.statements = .ok drawn ∧
      ∀ order, truthGraph.Orders order →
        ∃ files, truthGraph.fileInfos order = .ok files ∧ ¬ truthGraph.Agree drawn files := by
  rcases truthGraph_worded.statements_ok with ⟨drawn, hdrawn⟩
  refine ⟨_, drawn, rfl, rfl, truthGraph_worded, hdrawn, fun order horder => ?_⟩
  rcases truthGraph_worded.simple.fileInfos_ok order with ⟨files, hfiles⟩
  refine ⟨files, hfiles, fun hagree => ?_⟩
  rcases Graph.mem_statements hdrawn with ⟨nodes, edges, hnodes, -, hnode, -⟩
  have hshown : ∃ n ∈ nodes, n.name = "True" :=
    (Graph.drawn_name_iff hnodes).2 (by decide +kernel)
  have hdescribed : ¬ ∃ n ∈ truthGraph.describedNodes.toList, n.simpleName = "True" := by
    decide +kernel
  rcases hshown with ⟨n, hn, hname⟩
  have hkeys : "True" ∈ files.keys := ((hagree.name_iff "True").1 ⟨n, (hnode n).2 hn, hname⟩).1
  rcases (Graph.mem_keys_fileInfos hfiles).1 hkeys with ⟨m, hm, hm'⟩
  exact hdescribed ⟨m, horder.mem_iff.1 hm, hm'⟩

end JavaDeps
