import JavaDeps.Proofs.Metadata.Agreement

/-!
# What a description loses

The description of a graph has one entry for a name. Of nodes that share a name only one is
described, and of the calls from a file to files that share a name only the last one is listed. The
edges of a node with a name of its own to others with names of their own are all listed, on both
sides.
-/

namespace JavaDeps

/-! ## Nodes with a name of their own -/

namespace Graph

variable {g : Graph}

/-- The nodes of the graph that have the name of the node are those that compare as equal to it. -/
def Alone (g : Graph) (n : Node) : Prop :=
  ∀ m, g.IsNode m → (m.simpleName = n.simpleName ↔ (m == n) = true)

/-- Under the name of such a node, the node or an equal one is described. -/
theorem Alone.described {n : Node} (h : g.Alone n) (hn : g.IsNode n) {order : List Node}
    (horder : g.Orders order) :
    ∃ m, Graph.described order n.simpleName = some m ∧ (m == n) = true := by
  rcases SortedSet.exists_mem_ofList (isNode_iff.2 hn) with ⟨m, hm, hmn⟩
  have hname : m.simpleName = n.simpleName :=
    (h m (isNode_iff.1 (SortedSet.mem_of_mem_ofList hm))).2 hmn
  rcases exists_lastWith (horder.mem_iff.2 hm) hname with ⟨last, hlast⟩
  rcases horder.described_isNode hlast with ⟨hnode, hsame⟩
  exact ⟨last, hlast, (h last hnode).1 hsame⟩

/-! ## Edges of a node -/

/-- The calls from a file are the entries of its row, by the stems of their targets. -/
theorem callsFrom_of_mem {p : SourcePath} {row : Targets SourcePath}
    (hrow : (p, row) ∈ g.calls.entries) :
    g.callsFrom (.file p) = row.entries.map (fun e => (e.1.stem, e.2.value)) := by
  have hget : g.calls.get? p = some row := Table.get?_of_mem hrow
  simp [Graph.callsFrom, Table.getD, hget]

/-- Of the calls from a file, only the one to a file of its own name has this name at its end. -/
theorem last_callsFrom {p q : SourcePath} {row : Targets SourcePath}
    {labels : Labels} (hrow : (p, row) ∈ g.calls.entries) (hlabels : (q, labels) ∈ row.entries)
    (halone : g.Alone (.file q)) :
    lastWith Prod.fst q.stem (g.callsFrom (.file p)) = some (q.stem, labels.value) := by
  rw [callsFrom_of_mem hrow]
  refine lastWith_eq_some (List.mem_map.2 ⟨(q, labels), hlabels, rfl⟩) rfl (fun e he hname => ?_)
  rcases List.mem_map.1 he with ⟨⟨q', labels'⟩, hlabels', rfl⟩
  -- A call to a file of this name goes to the file itself, and its row lists the file once.
  have hsame : Node.file q' = .file q :=
    Node.beq_file.1 ((halone _ (Entry.call hrow hlabels').isNode.2).1 hname)
  cases hsame
  have hget := Table.get?_of_mem hlabels
  have hget' := Table.get?_of_mem hlabels'
  rw [Option.some.inj (hget.symm.trans hget')]

/-- Of the calls to a file, only the one from a file of its own name has this name at its start. -/
theorem last_callsTo {p q : SourcePath} {row : Targets SourcePath}
    {labels : Labels} (hrow : (p, row) ∈ g.calls.entries) (hlabels : (q, labels) ∈ row.entries)
    (halone : g.Alone (.file p)) :
    lastWith Prod.fst p.stem (g.callsTo (.file q)) = some (p.stem, labels.value) := by
  have hget : row.get? q = some labels := Table.get?_of_mem hlabels
  refine lastWith_eq_some (List.mem_filterMap.2 ⟨(p, row), hrow, by simp [hget]⟩) rfl
    (fun e he hname => ?_)
  rcases List.mem_filterMap.1 he with ⟨⟨p', row'⟩, hrow', hfound⟩
  rcases Option.map_eq_some_iff.1 hfound with ⟨labels', hget', rfl⟩
  rcases Table.entry_of_get? hget' with ⟨q', hlabels', -⟩
  have hsame : Node.file p' = .file p :=
    Node.beq_file.1 ((halone _ (Entry.call hrow' hlabels').isNode.1).1 hname)
  cases hsame
  have hfirst := Table.get?_of_mem hrow
  have hfirst' := Table.get?_of_mem hrow'
  cases Option.some.inj (hfirst.symm.trans hfirst')
  rw [Option.some.inj (hget.symm.trans hget')]

/-- Added edges are found from every node that compares as equal to their source. -/
theorem mem_customFrom {source target n : Node} {row : Targets Node}
    {labels : Labels} (hrow : (source, row) ∈ g.customEdges.entries)
    (hlabels : (target, labels) ∈ row.entries) (hn : (n == source) = true) :
    (target.simpleName, labels.value) ∈ g.customFrom n := by
  have hget : g.customEdges.get? n = some row :=
    Table.get?_of_mem_equal hrow (BEq.symm hn)
  have hfrom : g.customFrom n = row.entries.map (fun e => (e.1.simpleName, e.2.value)) := by
    simp [Graph.customFrom, Table.getD, hget]
  rw [hfrom]
  exact List.mem_map.2 ⟨(target, labels), hlabels, rfl⟩

/-- Added edges are found from every node that compares as equal to their target. -/
theorem mem_customTo {source target n : Node} {row : Targets Node}
    {labels : Labels} (hrow : (source, row) ∈ g.customEdges.entries)
    (hlabels : (target, labels) ∈ row.entries) (hn : (n == target) = true) :
    (source.simpleName, labels.value) ∈ g.customTo n := by
  have hget : row.get? n = some labels :=
    Table.get?_of_mem_equal hlabels (BEq.symm hn)
  exact List.mem_filterMap.2 ⟨(source, row), hrow, by simp [hget]⟩

/-! ## What is listed -/

variable {order : List Node} {files : Table String FileInfo} {source target : Node}
  {labels label : Value}

/-- Between nodes alone under their names every label of an entry is listed as outgoing. -/
theorem Alone.listsOutgoing (hsource : g.Alone source) (htarget : g.Alone target)
    (horder : g.Orders order) (hfiles : g.fileInfos order = .ok files)
    (hentry : g.Entry source target labels) (hlists : labels.Lists label) :
    ListsOutgoing files source.simpleName target.simpleName label := by
  rw [listsOutgoing_iff hfiles]
  rcases hsource.described hentry.isNode.1 horder with ⟨n, hn, hequal⟩
  refine ⟨n, hn, ?_⟩
  cases hentry with
  | call hrow hlabels =>
    rw [Node.beq_file.1 hequal]
    exact Or.inl ⟨_, last_callsFrom hrow hlabels htarget, hlists⟩
  | custom hrow hlabels => exact Or.inr ⟨_, mem_customFrom hrow hlabels hequal, rfl, hlists⟩

/-- Between nodes alone under their names every label of an entry is listed as incoming. -/
theorem Alone.listsIncoming (hsource : g.Alone source) (htarget : g.Alone target)
    (horder : g.Orders order) (hfiles : g.fileInfos order = .ok files)
    (hentry : g.Entry source target labels) (hlists : labels.Lists label) :
    ListsIncoming files source.simpleName target.simpleName label := by
  rw [listsIncoming_iff hfiles]
  rcases htarget.described hentry.isNode.2 horder with ⟨n, hn, hequal⟩
  refine ⟨n, hn, ?_⟩
  cases hentry with
  | call hrow hlabels =>
    rw [Node.beq_file.1 hequal]
    exact Or.inl ⟨_, last_callsTo hrow hlabels hsource, hlists⟩
  | custom hrow hlabels => exact Or.inr ⟨_, mem_customTo hrow hlabels hequal, rfl, hlists⟩

/-- A description holds what is told of the files. -/
theorem files_of_describe {directory : String} {data : Value}
    (h : g.describe directory order = .ok data) :
    ∃ files, g.fileInfos order = .ok files ∧
      data.field? "files" = some (.obj (files.mapValues FileInfo.toValue).entries) := by
  rcases bind_eq_ok h with ⟨rows, -, h⟩
  rcases bind_eq_ok h with ⟨files, hfiles, h⟩
  cases h
  exact ⟨files, hfiles, rfl⟩

end Graph

/-- After the analysis of a fresh project and any selections and edits, the description succeeds if
the labels are texts. A label is listed among the outgoing calls of a name if the node described
under this name gives it: by its last call to a file of the other name, or by an added edge. For
incoming calls the same holds the other way round. So labels are listed on both sides if the nodes
at both ends have names of their own. All this is so in whatever order the nodes are gone through;
of nodes that share a name the last one in this order is described. -/
theorem dependencies_listed_iff (depth : Depth) (root : String) (s : Session) :
    ∃ t, (do openProject depth root; analyze : Action Unit) s = (.ok (), t) ∧
      ∀ ops g, g = (Operation.afterAll ops t).project.graph →
        ∀ directory order, g.Orders order →
        (g.Worded → ∃ data, g.describe directory order = .ok data) ∧
        ∀ data, g.describe directory order = .ok data → ∃ files,
          data.field? "files" = some (.obj (files.mapValues FileInfo.toValue).entries) ∧
          (∀ a b label, ListsOutgoing files a b label ↔
            ∃ n, Graph.described order a = some n ∧
              Gathers (g.callsFrom n) (g.customFrom n) b label) ∧
          (∀ a b label, ListsIncoming files a b label ↔
            ∃ n, Graph.described order b = some n ∧ Gathers (g.callsTo n) (g.customTo n) a label) ∧
          ∀ source target labels label, g.Entry source target labels → labels.Lists label →
            g.Alone source → g.Alone target →
            ListsOutgoing files source.simpleName target.simpleName label ∧
              ListsIncoming files source.simpleName target.simpleName label := by
  rcases openProject_analyze_starts depth root s with ⟨_, t, hrun, -⟩
  refine ⟨t, hrun, ?_⟩
  rintro ops g rfl directory order horder
  refine ⟨fun hworded => ?_, fun data hdata => ?_⟩
  · rcases hworded.simple.fileInfos_ok order with ⟨files, hfiles⟩
    rcases hworded.simple.describe_ok hfiles directory with ⟨data, hdata, -⟩
    exact ⟨data, hdata⟩
  · rcases Graph.files_of_describe hdata with ⟨files, hfiles, hfield⟩
    refine ⟨files, hfield, fun a b label => Graph.listsOutgoing_iff hfiles,
      fun a b label => Graph.listsIncoming_iff hfiles, ?_⟩
    -- Nothing is lost between nodes that share their names with no other node.
    intro source target labels label hentry hlists hsource htarget
    exact ⟨hsource.listsOutgoing htarget horder hfiles hentry hlists,
      hsource.listsIncoming htarget horder hfiles hentry hlists⟩

/-! ## Two files of one name -/

/-- A class that calls two others, whose files have one name. -/
def twinFiles : Disk :=
  (((default : Disk).put (SourcePath.ofText "A.java")
      (.text "class A \x7b int x = B.m() + C.n(); \x7d")).put
    (SourcePath.ofText "p/B.java") (.text "class B \x7b \x7d")).put
    (SourcePath.ofText "q/B.java") (.text "class C \x7b \x7d")

theorem sources_twinFiles : twinFiles.sources (SourcePath.ofText ".") =
    [(⟨"", ["A.java"]⟩, "class A \x7b int x = B.m() + C.n(); \x7d".toList),
      (⟨"", ["p", "B.java"]⟩, "class B \x7b \x7d".toList),
      (⟨"", ["q", "B.java"]⟩, "class C \x7b \x7d".toList)] := by decide +kernel

def twinClasses : Graph where
  root := SourcePath.ofText "."
  classes := .mk [("A", ⟨"", ["A.java"]⟩), ("B", ⟨"", ["p", "B.java"]⟩),
    ("C", ⟨"", ["q", "B.java"]⟩)]
  declared := .mk [(⟨"", ["A.java"]⟩, .ofList ["A"]), (⟨"", ["p", "B.java"]⟩, .ofList ["B"]),
    (⟨"", ["q", "B.java"]⟩, .ofList ["C"])]

def twinGraph : Graph := { twinClasses with calls := mixedGraph.calls }

/-- The analysis of the files with a shared stem gives the graph of the twins. -/
theorem analyzed_twinFiles :
    (Graph.ofRoot (SourcePath.ofText ".")).analyzed twinFiles = twinGraph := by
  have hdeclared : (Graph.ofRoot (SourcePath.ofText ".")).recordAll
      ((Graph.ofRoot (SourcePath.ofText ".")).foundDeclarations twinFiles) = twinClasses := by
    show (Graph.ofRoot (SourcePath.ofText ".")).recordAll
      ((twinFiles.sources (SourcePath.ofText ".")).flatMap _) = _
    rw [sources_twinFiles]
    rfl
  have hcalls : twinClasses.recordAll (twinClasses.foundCalls twinFiles) = twinGraph := by
    show twinClasses.recordAll ((twinFiles.sources (SourcePath.ofText ".")).flatMap _) = _
    rw [sources_twinFiles]
    rfl
  rw [Graph.analyzed, hdeclared, hcalls]

theorem twinGraph_worded : twinGraph.Worded := by
  constructor
  · intro source target v hentry
    cases hentry with
    | call hrow hlabels =>
      cases List.mem_singleton.1 hrow
      rcases List.mem_cons.1 hlabels with h | h
      · cases h
        exact Value.ofNames_isTexts ["m"]
      · cases List.mem_singleton.1 h
        exact Value.ofNames_isTexts ["n"]
    | custom hrow hlabels => cases hrow
  · intro e he
    cases he

/-- The nodes of the graph are the three files, in whatever order. -/
theorem mem_of_orders_twinGraph {order : List Node} (h : twinGraph.Orders order) {n : Node} :
    n ∈ order ↔ n = .file ⟨"", ["A.java"]⟩ ∨ n = .file ⟨"", ["p", "B.java"]⟩ ∨
      n = .file ⟨"", ["q", "B.java"]⟩ := by
  have hnodes : twinGraph.describedNodes.toList = [.file ⟨"", ["A.java"]⟩,
      .file ⟨"", ["p", "B.java"]⟩, .file ⟨"", ["q", "B.java"]⟩] := by
    decide +kernel
  rw [h.mem_iff, hnodes]
  simp only [List.mem_cons, List.not_mem_nil, or_false]

/-- Where the last call has one label, no other label is gathered. -/
theorem not_gathers_of_last (label : String) {calls : List (String × Value)} {name other : String}
    (hlast : lastWith Prod.fst name calls = some (name, Value.ofNames [label]))
    (hne : label ≠ other) : ¬ Gathers calls [] name (.str other) := by
  rintro (⟨e, he, items, hitems, item, hitem, halike⟩ | ⟨e, he, -⟩)
  · cases he.symm.trans hlast
    cases hitems
    cases List.mem_singleton.1 hitem
    exact hne (Atom.str.inj (Value.atom.inj (Value.str_alike.1 halike))).symm
  · cases he

/-- The label of the first call is not listed among the outgoing calls: the second call is written
over it. Among the incoming calls one of the two labels is missing, because only one of the files of
this name is described; in the ascending order of the nodes it is that of the first call as well. -/
theorem twin_call_lost :
    ∃ t, (do openProject .plain "."; analyze : Action Unit) (Session.ofDisk twinFiles) =
      (.ok (), t) ∧
      t.project.graph.Entry (.file ⟨"", ["A.java"]⟩) (.file ⟨"", ["p", "B.java"]⟩)
        (Value.ofNames ["m"]) ∧
      t.project.graph.Entry (.file ⟨"", ["A.java"]⟩) (.file ⟨"", ["q", "B.java"]⟩)
        (Value.ofNames ["n"]) ∧
      ∀ directory order, t.project.graph.Orders order → ∃ data files,
        t.project.graph.describe directory order = .ok data ∧
        data.field? "files" = some (.obj (files.mapValues FileInfo.toValue).entries) ∧
        ¬ ListsOutgoing files "A" "B" (.str "m") ∧
        (¬ ListsIncoming files "A" "B" (.str "m") ∨ ¬ ListsIncoming files "A" "B" (.str "n")) ∧
        (order = t.project.graph.describedNodes.toList →
          ¬ ListsIncoming files "A" "B" (.str "m")) := by
  rcases openProject_analyze_starts .plain "." (Session.ofDisk twinFiles) with ⟨_, t, hrun, -⟩
  have hgraph : t.project.graph = twinGraph :=
    (graph_of_analyze_plain hrun).trans analyzed_twinFiles
  have hrow : (⟨"", ["A.java"]⟩, twinCalls) ∈ twinGraph.calls.entries := List.mem_singleton.2 rfl
  refine ⟨t, hrun, ?_⟩
  rw [hgraph]
  refine ⟨.call hrow List.mem_cons_self, .call hrow (.tail _ (.head _)), ?_⟩
  intro directory order horder
  rcases twinGraph_worded.simple.fileInfos_ok order with ⟨files, hfiles⟩
  rcases twinGraph_worded.simple.describe_ok hfiles directory with ⟨data, hdata, hfield⟩
  -- If the second file of the name is described, the label of the first call is lost there as well.
  have hsecond : Graph.described order "B" = some (.file ⟨"", ["q", "B.java"]⟩) →
      ¬ ListsIncoming files "A" "B" (.str "m") := by
    intro hfile hlisted
    rcases (Graph.listsIncoming_iff hfiles).1 hlisted with ⟨n, hn, hgathers⟩
    cases hn.symm.trans hfile
    exact not_gathers_of_last "n" rfl (by decide) hgathers
  have hfirst : Graph.described order "B" = some (.file ⟨"", ["p", "B.java"]⟩) →
      ¬ ListsIncoming files "A" "B" (.str "n") := by
    intro hfile hlisted
    rcases (Graph.listsIncoming_iff hfiles).1 hlisted with ⟨n, hn, hgathers⟩
    cases hn.symm.trans hfile
    exact not_gathers_of_last "m" rfl (by decide) hgathers
  refine ⟨data, files, hdata, hfield, fun hlisted => ?_, ?_, ?_⟩
  · rcases (Graph.listsOutgoing_iff hfiles).1 hlisted with ⟨n, hn, hgathers⟩
    rcases mem_of_lastWith hn with ⟨hmem, hname⟩
    rcases (mem_of_orders_twinGraph horder).1 hmem with rfl | rfl | rfl
    · exact not_gathers_of_last "n" rfl (by decide) hgathers
    · exact absurd hname (by decide +kernel)
    · exact absurd hname (by decide +kernel)
  · have hmem := (mem_of_orders_twinGraph horder).2 (Or.inr (Or.inr rfl))
    have hname : Node.simpleName (.file ⟨"", ["q", "B.java"]⟩) = "B" := by decide +kernel
    rcases exists_lastWith hmem hname with ⟨n, hn⟩
    rcases (mem_of_orders_twinGraph horder).1 (mem_of_lastWith hn).1 with rfl | rfl | rfl
    · exact absurd (mem_of_lastWith hn).2 (by decide +kernel)
    · exact Or.inr (hfirst hn)
    · exact Or.inl (hsecond hn)
  · rintro rfl
    exact hsecond (by decide +kernel)

end JavaDeps
