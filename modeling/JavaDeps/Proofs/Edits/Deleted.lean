import JavaDeps.Proofs.Metadata.Lost

/-!
# What deletions leave

Nodes and edges are deleted by the names under which they are drawn, which files of one stem share,
and which an added node shares when its own name is written like a path. Deleting a node takes out
its rows, but from the row of another node only the first target of its name. Deleting an edge takes
out the first target of the one name in the first row of the other, and looks for an added node by
its own name.
-/

namespace JavaDeps

/-! ## Edges of a table -/

section

variable {α : Type} [BEq α] {t : Table α (Targets α)} {x y : α} {l : Labels}

/-- A table has an edge with these labels between two nodes. -/
def Joins (t : Table α (Targets α)) (source target : α) (l : Labels) : Prop :=
  ∃ row, (source, row) ∈ t.entries ∧ (target, l) ∈ row.entries

namespace Graph

/-- An edge between two names is one of the calls or one of the added edges. -/
theorem runs_iff_joins {g : Graph} {a b : String} {v : Value} :
    g.Runs a b v ↔
      (∃ p q l, Joins g.calls p q l ∧ p.stem = a ∧ q.stem = b ∧ l.value = v) ∨
        ∃ m n l, Joins g.customEdges m n l ∧ m.simpleName = a ∧ n.simpleName = b ∧ l.value = v := by
  constructor
  · rintro ⟨source, target, hentry, rfl, rfl⟩
    cases hentry with
    | call hrow hlabels => exact Or.inl ⟨_, _, _, ⟨_, hrow, hlabels⟩, rfl, rfl, rfl⟩
    | custom hrow hlabels => exact Or.inr ⟨_, _, _, ⟨_, hrow, hlabels⟩, rfl, rfl, rfl⟩
  · rintro (⟨p, q, l, ⟨row, hrow, hlabels⟩, rfl, rfl, rfl⟩ |
      ⟨m, n, l, ⟨row, hrow, hlabels⟩, rfl, rfl, rfl⟩)
    · exact ⟨.file p, .file q, .call hrow hlabels, rfl, rfl⟩
    · exact ⟨m, n, .custom hrow hlabels, rfl, rfl⟩

/-! ## Taking out a node -/

variable {isNode : α → Bool}

/-- The row of another node lists the node twice or more often. -/
def Repeats (isNode : α → Bool) (t : Table α (Targets α)) : Prop :=
  ∃ e ∈ t.entries, isNode e.1 = false ∧ 2 ≤ e.2.keys.countP isNode

/-- One occurrence is removed from a row. -/
theorem countP_keys_eraseFirst {β : Type} (p : α → Bool) (row : Table α β) :
    (eraseFirst p row).keys.countP p = row.keys.countP p - 1 := by
  rcases row with ⟨entries, distinct⟩
  simp only [eraseFirst, Table.keys, List.countP_map]
  clear distinct
  induction entries with
  | nil => rfl
  | cons e rest ih =>
    by_cases he : p e.1 = true
    · simp [he]
    · simpa [List.eraseP_cons, he] using ih

/-- No row of the node is left. -/
theorem source_of_mem_detach {e : α × Targets α} (h : e ∈ (detach isNode t).entries) :
    isNode e.1 = false := by
  rcases List.mem_map.1 h with ⟨e', he', rfl⟩
  simpa using (List.mem_filter.1 he').2

/-- Edges to the node are left exactly where it was listed twice. -/
theorem exists_joins_detach_iff :
    (∃ x y l, Joins (detach isNode t) x y l ∧ isNode y = true) ↔ Repeats isNode t := by
  constructor
  · rintro ⟨x, y, l, ⟨row, hrow, hl⟩, hy⟩
    rcases List.mem_map.1 hrow with ⟨e, he, heq⟩
    cases heq
    have hleft : 0 < (eraseFirst isNode e.2).keys.countP isNode :=
      List.countP_pos_iff.2 ⟨y, List.mem_map_of_mem hl, hy⟩
    rw [countP_keys_eraseFirst] at hleft
    exact ⟨e, (List.mem_filter.1 he).1, by simpa using (List.mem_filter.1 he).2, by omega⟩
  · rintro ⟨e, he, hsource, hcount⟩
    have hleft : 0 < (eraseFirst isNode e.2).keys.countP isNode := by
      rw [countP_keys_eraseFirst]
      omega
    rcases List.countP_pos_iff.1 hleft with ⟨y, hmem, hy⟩
    rcases List.mem_map.1 hmem with ⟨⟨y, l⟩, hl, rfl⟩
    have hrow : (e.1, eraseFirst isNode e.2) ∈ (detach isNode t).entries :=
      List.mem_map.2 ⟨e, List.mem_filter.2 ⟨he, by simp [hsource]⟩, rfl⟩
    exact ⟨e.1, y, l, ⟨_, hrow, hl⟩, hy⟩

end Graph

end

theorem Table.contains_erase {α β : Type} [BEq α] (t : Table α β) (k : α) :
    (t.erase k).contains k = false := by
  simp [contains, erase, filterKeys]

/-! ## Deleting a node -/

namespace Graph

variable {g : Graph} {name : String}

/-- Two edges from one node, which has another name, end at nodes of this name. -/
def RepeatsName (g : Graph) (name : String) : Prop :=
  Repeats (fun p : SourcePath => name == p.stem) g.calls ∨
    Repeats (fun n : Node => name == n.simpleName) g.customEdges

/-- A node of this name is left when it is deleted: it is the second one in a row, or it was added
under another name, from which this one is taken. -/
def Survives (g : Graph) (name : String) : Prop :=
  g.RepeatsName name ∨
    ∃ key ∈ g.customNodes.keys, key ≠ .str name ∧ (Node.named key).simpleName = name

def without (g : Graph) (name : String) : Graph := (g.deleteNode (.str name)).2

/-- No edge starts at a deleted node. -/
theorem not_runs_from_without (other : String) (v : Value) :
    ¬ (g.without name).Runs name other v := by
  intro hruns
  rcases runs_iff_joins.1 hruns with
    ⟨p, q, l, ⟨row, hrow, -⟩, rfl, -⟩ | ⟨m, n, l, ⟨row, hrow, -⟩, rfl, -⟩
  · have hsource : (p.stem == p.stem) = false := source_of_mem_detach hrow
    simp at hsource
  · have hsource : (m.simpleName == m.simpleName) = false := source_of_mem_detach hrow
    simp at hsource

/-- An edge ends at a deleted node exactly if a row lists its name twice. -/
theorem exists_runs_to_without_iff :
    (∃ other v, (g.without name).Runs other name v) ↔ g.RepeatsName name := by
  unfold RepeatsName
  rw [← exists_joins_detach_iff, ← exists_joins_detach_iff]
  constructor
  · rintro ⟨other, v, hruns⟩
    rcases runs_iff_joins.1 hruns with ⟨p, q, l, hjoins, -, rfl, -⟩ | ⟨m, n, l, hjoins, -, rfl, -⟩
    · exact Or.inl ⟨p, q, l, hjoins, beq_self_eq_true _⟩
    · exact Or.inr ⟨m, n, l, hjoins, beq_self_eq_true _⟩
  · rintro (⟨p, q, l, hjoins, hname⟩ | ⟨m, n, l, hjoins, hname⟩)
    · exact ⟨p.stem, l.value,
        runs_iff_joins.2 (Or.inl ⟨p, q, l, hjoins, rfl, (eq_of_beq hname).symm, rfl⟩)⟩
    · exact ⟨m.simpleName, l.value,
        runs_iff_joins.2 (Or.inr ⟨m, n, l, hjoins, rfl, (eq_of_beq hname).symm, rfl⟩)⟩

theorem mem_keys_customNodes_without {key : Atom} :
    key ∈ (g.without name).customNodes.keys ↔ key ∈ g.customNodes.keys ∧ key ≠ .str name := by
  have hother : (key == .str name) = false ↔ key ≠ .str name := by
    rw [Bool.eq_false_iff, Ne, Ne, not_congr]
    exact ⟨fun h => Atom.str_beq.1 (BEq.symm h), fun h => h ▸ BEq.rfl⟩
  show key ∈ (g.customNodes.erase (.str name)).keys ↔ _
  rw [Table.keys_erase, List.mem_filter, Bool.not_eq_true', hother]

/-- A node at an end of an edge has a row, or it is the target of an edge. -/
theorem mem_edgeEnds_cases {n : Node} (h : n ∈ g.edgeEnds) :
    (∃ p row, (p, row) ∈ g.calls.entries ∧ n = .file p) ∨
      (∃ row, (n, row) ∈ g.customEdges.entries) ∨ ∃ source v, g.Entry source n v := by
  rcases List.mem_append.1 h with hend | hend
  · rcases List.mem_flatMap.1 hend with ⟨⟨p, row⟩, hrow, hn⟩
    rcases List.mem_cons.1 hn with rfl | hn
    · exact Or.inl ⟨p, row, hrow, rfl⟩
    · rcases List.mem_map.1 hn with ⟨q, hq, rfl⟩
      rcases List.mem_map.1 hq with ⟨⟨q, l⟩, hl, rfl⟩
      exact Or.inr (Or.inr ⟨.file p, l.value, .call hrow hl⟩)
  · rcases List.mem_flatMap.1 hend with ⟨⟨m, row⟩, hrow, hn⟩
    rcases List.mem_cons.1 hn with rfl | hn
    · exact Or.inr (Or.inl ⟨row, hrow⟩)
    · rcases List.mem_map.1 hn with ⟨⟨n, l⟩, hl, rfl⟩
      exact Or.inr (Or.inr ⟨m, l.value, .custom hrow hl⟩)

/-- The nodes of the name that are left. -/
theorem exists_isNode_without_iff :
    (∃ n, (g.without name).IsNode n ∧ n.simpleName = name) ↔ g.Survives name := by
  constructor
  · rintro ⟨n, hn, rfl⟩
    rcases List.mem_append.1 hn with hend | hadded
    · -- No row for the name is left, so the node is a target.
      rcases mem_edgeEnds_cases hend with ⟨p, row, hrow, rfl⟩ | ⟨row, hrow⟩ | ⟨source, v, hentry⟩
      · have hsource : (p.stem == p.stem) = false := source_of_mem_detach hrow
        simp at hsource
      · have hsource : (n.simpleName == n.simpleName) = false := source_of_mem_detach hrow
        simp at hsource
      · exact Or.inl (exists_runs_to_without_iff.1 ⟨_, v, source, n, hentry, rfl, rfl⟩)
    · rcases List.mem_map.1 hadded with ⟨key, hkey, rfl⟩
      rcases mem_keys_customNodes_without.1 hkey with ⟨hold, hother⟩
      exact Or.inr ⟨key, hold, hother, rfl⟩
  · rintro (hrepeats | ⟨key, hkey, hother, hname⟩)
    · rcases exists_runs_to_without_iff.2 hrepeats with ⟨other, v, source, target, hentry, -, hname⟩
      exact ⟨target, hentry.isNode.2, hname⟩
    · have hleft := mem_keys_customNodes_without.2 ⟨hkey, hother⟩
      exact ⟨.named key, List.mem_append_right _ (List.mem_map_of_mem hleft), hname⟩

/-! ## The drawing after the deletion -/

theorem dotLines_of_statements {drawn : List Dot.Statement} (h : g.statements = .ok drawn) :
    g.dotLines = .ok (Dot.linesOf drawn) := by
  rw [dotLines, h]
  rfl

/-- A drawn edge is one of the graph. -/
theorem runs_of_mem_edgeStatements {edges : List Dot.EdgeStatement}
    (h : g.edgeStatements = .ok edges) {e : Dot.EdgeStatement} (he : e ∈ edges) :
    ∃ v, g.Runs e.source e.target v := by
  have hloop : ∀ {general style : String} {listed : List (String × String × Value)}
      {drawn : List Dot.EdgeStatement}, Dot.edgeStatementsOf g general style listed = .ok drawn →
      e ∈ drawn → ∃ v, (e.source, e.target, v) ∈ listed := by
    intro general style listed drawn hdrawn hmem
    rcases (mem_mapM_iff hdrawn).1 hmem with ⟨⟨a, b, v⟩, hlisted, hst⟩
    rcases ends_of_edgeStatement hst with ⟨rfl, rfl⟩
    exact ⟨v, (List.mem_filter.1 hlisted).1⟩
  rcases bind_eq_ok h with ⟨calls, hcalls, h⟩
  rcases bind_eq_ok h with ⟨custom, hcustom, h⟩
  cases h
  rcases List.mem_append.1 he with he | he
  · exact (hloop hcalls he).imp (fun _ hv => runs_iff.2 (Or.inl hv))
  · exact (hloop hcustom he).imp (fun _ hv => runs_iff.2 (Or.inr hv))

/-- A name that is drawn, as a node or at an end of an edge, is that of a node. -/
theorem isNode_of_names {drawn : List Dot.Statement} (h : g.statements = .ok drawn)
    {st : Dot.Statement} (hst : st ∈ drawn) (hname : st.Names name) :
    ∃ n, g.IsNode n ∧ n.simpleName = name := by
  rcases mem_statements h with ⟨nodes, edges, hnodes, hedges, hnode, hedge⟩
  cases st with
  | line text => cases hname
  | node st =>
    rcases (drawn_name_iff hnodes).1 ⟨st, (hnode st).1 hst, hname⟩ with ⟨⟨n, hn, hname⟩, -⟩
    exact ⟨n, SortedSet.mem_of_mem_ofList hn, hname⟩
  | edge e =>
    rcases runs_of_mem_edgeStatements hedges ((hedge e).1 hst) with
      ⟨v, source, target, hentry, hsource, htarget⟩
    rcases hname with rfl | rfl
    · exact ⟨source, hentry.isNode.1, hsource⟩
    · exact ⟨target, hentry.isNode.2, htarget⟩

/-- Where nodes that compare as equal have one name, every name of a node is drawn unless it is
hidden. -/
theorem OneName.node_of_isNode (hone : g.OneName) {nodes : List Dot.NodeStatement}
    (hnodes : g.nodeStatements = .ok nodes) {n : Node} (hn : g.IsNode n)
    (hshown : g.hidesNode n.simpleName = false) : ∃ st ∈ nodes, st.name = n.simpleName := by
  have hlisted : ∃ m ∈ g.nodes.toList, m.simpleName = n.simpleName :=
    (SortedSet.exists_mem_ofList_iff (fun m hm n hn => hone m n hm hn)).2 ⟨n, hn, rfl⟩
  exact (drawn_name_iff hnodes).2 ⟨hlisted, hshown⟩

/-- Every shown name of a node is drawn, where equal nodes have one name. -/
theorem OneName.names_of_isNode (hone : g.OneName) {drawn : List Dot.Statement}
    (h : g.statements = .ok drawn) {n : Node} (hn : g.IsNode n)
    (hshown : g.hidesNode n.simpleName = false) : ∃ st ∈ drawn, st.Names n.simpleName := by
  rcases mem_statements h with ⟨nodes, edges, hnodes, -, hnode, -⟩
  rcases hone.node_of_isNode hnodes hn hshown with ⟨st, hst, hname⟩
  exact ⟨.node st, (hnode st).2 hst, hname⟩

/-- Nothing is set for a name: it is no added node, is not hidden, has no colour and stands at no
end of a hidden edge. -/
structure Unmarked (g : Graph) (name : String) : Prop where
  customNodes : g.customNodes.contains (.str name) = false
  hiddenNodes : g.hidesNode name = false
  colors : g.colors.contains (.str name) = false
  hiddenEdges : ∀ e ∈ g.hiddenEdges.toList, e.1 ≠ .str name ∧ e.2 ≠ .str name

/-- After its deletion nothing is set for a name. -/
theorem without_unmarked (g : Graph) (name : String) : (g.without name).Unmarked name where
  customNodes := Table.contains_erase g.customNodes (.str name)
  hiddenNodes := by
    show (g.hiddenNodes.erase (.str name)).contains (.str name) = false
    simp [SortedSet.contains, SortedSet.erase, SortedSet.filter]
  colors := Table.contains_erase g.colors (.str name)
  hiddenEdges e he := by
    -- A text is a single value that is equal to itself, unlike what is no number.
    have hequals : (Atom.str name).equals (.str name) = true := by
      have hnumber : (Atom.str name == .decimal .nan) = false :=
        Bool.eq_false_iff.2 (fun h => by cases Atom.str_beq.1 h)
      rw [Atom.equals, hnumber, BEq.rfl]
      rfl
    have hkept := (List.mem_filter.1 he).2
    refine ⟨fun hsource => ?_, fun htarget => ?_⟩
    · simp [hsource, hequals] at hkept
    · simp [htarget, hequals] at hkept

end Graph

/-- Deleting a node succeeds. Nothing is set for its name any more and no edge starts at it. An edge
ends at it exactly if two edges from one node did, and its name is drawn only if there are such
edges or an added node with another name of its own is drawn under it. -/
theorem deleted_node_left_iff (g : Graph) (name : String) :
    ∃ g', g.deleteNode (.str name) = (.ok (), g') ∧ g'.Unmarked name ∧
      (∀ other v, ¬ g'.Runs name other v) ∧
      ((∃ other v, g'.Runs other name v) ↔ g.RepeatsName name) ∧
      ∀ drawn, g'.statements = .ok drawn → g'.dotLines = .ok (Dot.linesOf drawn) ∧
        (¬ g.Survives name → ∀ st ∈ drawn, ¬ st.Names name) ∧
        (g'.OneName → g.Survives name → ∃ st ∈ drawn, st.Names name) := by
  have hunmarked := g.without_unmarked name
  refine ⟨g.without name, rfl, hunmarked, Graph.not_runs_from_without,
    Graph.exists_runs_to_without_iff,
    fun drawn hdrawn => ⟨Graph.dotLines_of_statements hdrawn, ?_, ?_⟩⟩
  · intro hgone st hst hname
    exact hgone (Graph.exists_isNode_without_iff.1 (Graph.isNode_of_names hdrawn hst hname))
  · intro hone hleft
    rcases Graph.exists_isNode_without_iff.2 hleft with ⟨n, hn, rfl⟩
    exact hone.names_of_isNode hdrawn hn hunmarked.hiddenNodes

/-- The second of two files with the name of the deleted node is left, and it is drawn under this
name. -/
theorem twin_left_by_deletion :
    ∃ t drawn,
      (do openProject .plain "."; analyze : Action Unit) (Session.ofDisk twinFiles) = (.ok (), t) ∧
      (t.project.graph.deleteNode (.str "B")).2.Runs "A" "B" (Value.ofNames ["n"]) ∧
      (t.project.graph.deleteNode (.str "B")).2.statements = .ok drawn ∧
      .node ⟨"B", "B\\n(C)", defaultColor, none⟩ ∈ drawn := by
  rcases openProject_analyze_starts .plain "." (Session.ofDisk twinFiles) with ⟨_, t, hrun, -⟩
  have hgraph : t.project.graph = twinGraph :=
    (graph_of_analyze_plain hrun).trans analyzed_twinFiles
  have hdrawn : (twinGraph.deleteNode (.str "B")).2.statements.toOption.any
      (fun drawn => decide (.node ⟨"B", "B\\n(C)", defaultColor, none⟩ ∈ drawn)) = true := by
    decide +kernel
  rcases exists_of_toOption_any hdrawn with ⟨drawn, hstatements, hmem⟩
  rw [← hgraph] at hstatements
  refine ⟨t, drawn, hrun, ?_, hstatements, of_decide_eq_true hmem⟩
  rw [hgraph]
  exact Graph.runs_iff.2 (Or.inl (List.mem_singleton.2 rfl))

/-! ## Taking out an edge -/

/-- Nothing but the node itself compares as equal to it. -/
def Exact {α : Type} [BEq α] (k : α) : Prop := ∀ x, (x == k) = true → x = k

theorem SourcePath.exact (p : SourcePath) : Exact p := fun _ h => eq_of_beq h

theorem Node.exact_text (s : String) : Exact (Node.named (.str s)) := by
  intro m hm
  cases m with
  | file p => cases hm
  | named b => rw [Atom.str_beq.1 (BEq.symm hm)]

/-- What a text names is a file or a text. -/
theorem Node.exact_of_isNamed {n : Node} {s : String} (h : n.isNamed (.str s) = true) :
    Exact n := by
  cases n with
  | file p => exact fun _ hm => Node.beq_file.1 hm
  | named a =>
    have ha : (a == .str s) = true := (Bool.and_eq_true_iff.1 h).1
    obtain rfl := Atom.str_beq.1 (BEq.symm ha)
    exact Node.exact_text s

/-- Writing replaces the entry of its key and leaves the others alone. -/
theorem Table.mem_set_iff {α β : Type} [BEq α] [EquivBEq α] {t : Table α β} {k : α} (hk : Exact k)
    {v : β} {e : α × β} :
    e ∈ (t.set k v).entries ↔ e = (k, v) ∨ (e ∈ t.entries ∧ e.1 ≠ k) := by
  rcases t with ⟨entries, distinct⟩
  simp only [Table.set]
  induction entries with
  | nil => simp [Table.setIn]
  | cons d rest ih =>
    rcases List.pairwise_cons.1 distinct with ⟨hfirst, hrest⟩
    simp only [Table.setIn]
    by_cases hd : (d.1 == k) = true
    · -- The entry is replaced, and no later one has the key.
      have hother : ∀ e ∈ rest, e.1 ≠ k := by
        intro e he hek
        have hequal := hfirst e.1 (List.mem_map_of_mem he)
        rw [hek, hd] at hequal
        cases hequal
      rw [if_pos hd, List.mem_cons, List.mem_cons, hk d.1 hd]
      constructor
      · rintro (rfl | he)
        · exact Or.inl rfl
        · exact Or.inr ⟨Or.inr he, hother e he⟩
      · rintro (rfl | ⟨rfl | he, hne⟩)
        · exact Or.inl rfl
        · exact absurd (hk e.1 hd) hne
        · exact Or.inr he
    · have hne : d.1 ≠ k := fun hdk => hd (hdk ▸ BEq.rfl)
      rw [if_neg hd, List.mem_cons, List.mem_cons, ih hrest]
      constructor
      · rintro (rfl | rfl | ⟨he, hek⟩)
        · exact Or.inr ⟨Or.inl rfl, hne⟩
        · exact Or.inl rfl
        · exact Or.inr ⟨Or.inr he, hek⟩
      · rintro (rfl | ⟨rfl | he, hek⟩)
        · exact Or.inr (Or.inl rfl)
        · exact Or.inl rfl
        · exact Or.inr (Or.inr ⟨he, hek⟩)

namespace Graph

variable {α : Type} [BEq α] [EquivBEq α] {t : Table α (Targets α)} {x y k k' : α} {l : Labels}

theorem mem_getD_iff_joins (hk : Exact k) :
    (y, l) ∈ (t.getD k Table.empty).entries ↔ Joins t k y l := by
  constructor
  · intro hmem
    rcases Table.entry_of_mem_getD hmem with ⟨x, row, hrow, hx, hl⟩
    exact ⟨row, hk x hx ▸ hrow, hl⟩
  · rintro ⟨row, hrow, hl⟩
    rw [Table.getD, Table.get?_of_mem_equal hrow BEq.rfl]
    exact hl

/-- Of the edges of a table, only the one that is taken out is missing. -/
theorem joins_removeEdge_iff (hk : Exact k) (hk' : Exact k') :
    Joins (removeEdge t (k, k')) x y l ↔ Joins t x y l ∧ (k, k') ≠ (x, y) := by
  have hrow : (y, l) ∈ ((t.getD k Table.empty).erase k').entries ↔ Joins t k y l ∧ k' ≠ y := by
    have hother : (!(y == k')) = true ↔ k' ≠ y := by
      rw [Bool.not_eq_true', Bool.eq_false_iff, Ne, Ne, not_congr]
      exact ⟨fun hy => (hk' y hy).symm, fun hy => hy ▸ BEq.rfl⟩
    rw [Table.erase, Table.filterKeys, List.mem_filter, mem_getD_iff_joins hk, hother]
  constructor
  · rintro ⟨row, hmem, hl⟩
    rcases (Table.mem_set_iff hk).1 hmem with heq | ⟨hmem, hne⟩
    · cases heq
      rcases hrow.1 hl with ⟨hjoins, hne⟩
      exact ⟨hjoins, fun heq => hne (Prod.mk.inj heq).2⟩
    · exact ⟨⟨row, hmem, hl⟩, fun heq => hne (Prod.mk.inj heq).1.symm⟩
  · rintro ⟨⟨row, hmem, hl⟩, hne⟩
    by_cases hx : x = k
    · -- The edge is in the row that is written anew, and it is another one than that taken out.
      subst hx
      have hleft := hrow.2 ⟨⟨row, hmem, hl⟩, fun hy => hne (by rw [hy])⟩
      exact ⟨_, (Table.mem_set_iff hk).2 (Or.inl rfl), hleft⟩
    · exact ⟨row, (Table.mem_set_iff hk).2 (Or.inr ⟨hmem, hx⟩), hl⟩

/-- Dropping an empty row drops no edge. -/
theorem joins_dropEmptyRow_iff (hk : Exact k) :
    Joins (dropEmptyRow t k) x y l ↔ Joins t x y l := by
  unfold dropEmptyRow
  split
  · rename_i hempty
    constructor
    · rintro ⟨row, hmem, hl⟩
      exact ⟨row, (List.mem_filter.1 hmem).1, hl⟩
    · rintro ⟨row, hmem, hl⟩
      have hx : (x == k) = false := by
        refine Bool.eq_false_iff.2 (fun hx => ?_)
        have hnone := (mem_getD_iff_joins hk).2 ⟨row, hk x hx ▸ hmem, hl⟩
        rw [List.isEmpty_iff.1 hempty] at hnone
        cases hnone
      exact ⟨row, List.mem_filter.2 ⟨hmem, by simp [hx]⟩, hl⟩
  · exact Iff.rfl

omit [EquivBEq α] in
/-- The edge that is found is one of the table, between nodes of the kinds that are looked for. -/
theorem joins_of_findEdge {isSource isTarget : α → Bool} {e : α × α}
    (h : findEdge isSource isTarget t = some e) :
    isSource e.1 = true ∧ isTarget e.2 = true ∧ ∃ l, Joins t e.1 e.2 l := by
  unfold findEdge at h
  split at h
  · rename_i row hrow
    rcases Option.map_eq_some_iff.1 h with ⟨target, htarget, rfl⟩
    rcases List.mem_map.1 (List.mem_of_find?_eq_some htarget) with ⟨⟨target, l⟩, hl, rfl⟩
    have hsource : isSource row.1 = true :=
      List.find?_some (p := fun e : α × Targets α => isSource e.1) hrow
    exact ⟨hsource, List.find?_some htarget, l, row.2, List.mem_of_find?_eq_some hrow, hl⟩
  · cases h

/-- The edge that is found is the first one in the first row. -/
theorem findEdge_eq_some_iff {isSource isTarget : α → Bool} {row : Targets α}
    (hrow : (k, row) ∈ t.entries) : findEdge isSource isTarget t = some (k, k') ↔
      t.keys.find? isSource = some k ∧ row.keys.find? isTarget = some k' := by
  have hkeys : t.keys.find? isSource = (t.entries.find? (fun e => isSource e.1)).map Prod.fst :=
    List.find?_map
  unfold findEdge
  rw [hkeys]
  cases hfirst : t.entries.find? (fun e => isSource e.1) with
  | none => simp
  | some e =>
    -- The table has one row for a node, so it is the row that is searched.
    have hsame : e.1 = k → e.2 = row := by
      rintro rfl
      have he := Table.get?_of_mem_equal (List.mem_of_find?_eq_some hfirst) BEq.rfl
      exact Option.some.inj (he.symm.trans (Table.get?_of_mem_equal hrow BEq.rfl))
    simp only [Option.map_eq_some_iff, Option.map_some, Option.some.injEq, Prod.mk.injEq]
    constructor
    · rintro ⟨target, htarget, hsource, rfl⟩
      exact ⟨hsource, hsame hsource ▸ htarget⟩
    · rintro ⟨hsource, htarget⟩
      exact ⟨k', (hsame hsource).symm ▸ htarget, hsource, rfl⟩

/-- Every edge of a table between two names is the first one: its source is the first one that is
looked for, and its target the first one in the row of the source. -/
def EachFirst (isSource isTarget : α → Bool) (name : α → String) (a b : String)
    (t : Table α (Targets α)) : Prop :=
  ∀ x row y, (x, row) ∈ t.entries → y ∈ row.keys → name x = a → name y = b →
    t.keys.find? isSource = some x ∧ row.keys.find? isTarget = some y

theorem eachFirst_iff {isSource isTarget : α → Bool} {name : α → String} {a b : String} :
    EachFirst isSource isTarget name a b t ↔ ∀ x y l, Joins t x y l → name x = a → name y = b →
      findEdge isSource isTarget t = some (x, y) := by
  constructor
  · rintro hfirst x y l ⟨row, hrow, hl⟩ hx hy
    exact (findEdge_eq_some_iff hrow).2 (hfirst x row y hrow (List.mem_map_of_mem hl) hx hy)
  · intro hfound x row y hrow hmem hx hy
    rcases List.mem_map.1 hmem with ⟨⟨y, l⟩, hl, rfl⟩
    exact (findEdge_eq_some_iff hrow).1 (hfound x y l ⟨row, hrow, hl⟩ hx hy)

end Graph

/-! ## Deleting an edge -/

namespace Graph

variable {g : Graph} {a b : String}

/-- Of the calls at most the one that is found is deleted. -/
theorem joins_calls_deleteEdge_iff {p q : SourcePath} {l : Labels} :
    Joins (g.deleteEdge (.str a) (.str b)).2.calls p q l ↔
      Joins g.calls p q l ∧ g.callEdge? (.str a) (.str b) ≠ some (p, q) := by
  rcases g.deleteEdge_graph (.str a) (.str b) with ⟨hidden, heq⟩
  rw [heq]
  cases hfound : g.callEdge? (.str a) (.str b) with
  | none => simp
  | some e =>
    rw [Ne, Option.some.injEq]
    exact joins_removeEdge_iff (SourcePath.exact e.1) (SourcePath.exact e.2)

/-- Of the added edges at most the one that is found is deleted. -/
theorem joins_custom_deleteEdge_iff {m n : Node} {l : Labels} :
    Joins (g.deleteEdge (.str a) (.str b)).2.customEdges m n l ↔
      Joins g.customEdges m n l ∧ g.customEdge? (.str a) (.str b) ≠ some (m, n) := by
  rcases g.deleteEdge_graph (.str a) (.str b) with ⟨hidden, heq⟩
  rw [heq]
  cases hfound : g.customEdge? (.str a) (.str b) with
  | none => simp
  | some e =>
    rcases joins_of_findEdge hfound with ⟨hsource, htarget, -⟩
    rw [Ne, Option.some.injEq]
    have hsource := Node.exact_of_isNamed hsource
    exact (joins_dropEmptyRow_iff hsource).trans
      (joins_removeEdge_iff hsource (Node.exact_of_isNamed htarget))

/-- Every edge between two names is the first one of its table. Among the added edges, an added node
is looked for by its own name. -/
structure FirstOnly (g : Graph) (a b : String) : Prop where
  calls : EachFirst (fun p => a == p.stem) (fun q => b == q.stem) SourcePath.stem a b g.calls
  custom : EachFirst (fun m => m.isNamed (.str a)) (fun n => n.isNamed (.str b)) Node.simpleName a b
    g.customEdges

/-- The first edges are deleted, so that no edge is left exactly if there were no others. -/
theorem not_runs_deleteEdge_iff :
    (∀ v, ¬ (g.deleteEdge (.str a) (.str b)).2.Runs a b v) ↔ g.FirstOnly a b := by
  constructor
  · intro hgone
    refine ⟨eachFirst_iff.2 (fun p q l hjoins hp hq => ?_),
      eachFirst_iff.2 (fun m n l hjoins hm hn => ?_)⟩
    · refine Classical.byContradiction (fun hother => ?_)
      have hleft := joins_calls_deleteEdge_iff.2 ⟨hjoins, hother⟩
      exact hgone l.value (runs_iff_joins.2 (Or.inl ⟨p, q, l, hleft, hp, hq, rfl⟩))
    · refine Classical.byContradiction (fun hother => ?_)
      have hleft := joins_custom_deleteEdge_iff.2 ⟨hjoins, hother⟩
      exact hgone l.value (runs_iff_joins.2 (Or.inr ⟨m, n, l, hleft, hm, hn, rfl⟩))
  · intro hfirst v hruns
    rcases runs_iff_joins.1 hruns with ⟨p, q, l, hleft, hp, hq, -⟩ | ⟨m, n, l, hleft, hm, hn, -⟩
    · rcases joins_calls_deleteEdge_iff.1 hleft with ⟨hjoins, hother⟩
      exact hother (eachFirst_iff.1 hfirst.calls p q l hjoins hp hq)
    · rcases joins_custom_deleteEdge_iff.1 hleft with ⟨hjoins, hother⟩
      exact hother (eachFirst_iff.1 hfirst.custom m n l hjoins hm hn)

/-- Where every edge is the first one, some edge is found if there is any. -/
theorem FirstOnly.isSome_of_runs (h : g.FirstOnly a b) {v : Value} (hruns : g.Runs a b v) :
    (g.callEdge? (.str a) (.str b)).isSome = true ∨
      (g.customEdge? (.str a) (.str b)).isSome = true := by
  rcases runs_iff_joins.1 hruns with ⟨p, q, l, hjoins, hp, hq, -⟩ | ⟨m, n, l, hjoins, hm, hn, -⟩
  · have hfound := eachFirst_iff.1 h.calls p q l hjoins hp hq
    exact Or.inl (Option.isSome_iff_exists.2 ⟨_, hfound⟩)
  · have hfound := eachFirst_iff.1 h.custom m n l hjoins hm hn
    exact Or.inr (Option.isSome_iff_exists.2 ⟨_, hfound⟩)

/-- A call that is found is an edge between the two names. -/
theorem runs_of_callEdge? (h : (g.callEdge? (.str a) (.str b)).isSome = true) :
    ∃ v, g.Runs a b v := by
  rcases Option.isSome_iff_exists.1 h with ⟨⟨p, q⟩, hfound⟩
  rcases joins_of_findEdge hfound with ⟨hp, hq, l, hjoins⟩
  have hp : a = p.stem := eq_of_beq hp
  have hq : b = q.stem := eq_of_beq hq
  exact ⟨l.value, runs_iff_joins.2 (Or.inl ⟨p, q, l, hjoins, hp.symm, hq.symm, rfl⟩)⟩

end Graph

/-- After the analysis of a fresh project and any selections and edits, deleting an edge between two
names succeeds and tells whether one was found among the calls or among the added edges. This is the
right answer, and no edge is left between the names, exactly if all edges between them are first
ones, and an added edge is found only where there is an edge between the names at all. -/
theorem deleted_edge_left_iff (depth : Depth) (root : String) (s : Session) :
    ∃ t, (do openProject depth root; analyze : Action Unit) s = (.ok (), t) ∧
      ∀ ops g, g = (Operation.afterAll ops t).project.graph → ∀ a b : String,
        ∃ found g', g.deleteEdge (.str a) (.str b) = (.ok found, g') ∧
          (found = true ↔ (g.callEdge? (.str a) (.str b)).isSome = true ∨
            (g.customEdge? (.str a) (.str b)).isSome = true) ∧
          (((found = true ↔ ∃ v, g.Runs a b v) ∧ ∀ v, ¬ g'.Runs a b v) ↔
            g.FirstOnly a b ∧
              ((g.customEdge? (.str a) (.str b)).isSome = true → ∃ v, g.Runs a b v)) := by
  rcases openProject_analyze_starts depth root s with ⟨_, t, hrun, -⟩
  refine ⟨t, hrun, ?_⟩
  intro ops g _ a b
  refine ⟨_, (g.deleteEdge (.str a) (.str b)).2, rfl, Bool.or_eq_true_iff, ?_⟩
  rw [Graph.not_runs_deleteEdge_iff, Bool.or_eq_true_iff]
  constructor
  · rintro ⟨hanswer, hfirst⟩
    exact ⟨hfirst, fun hadded => hanswer.1 (Or.inr hadded)⟩
  · rintro ⟨hfirst, hadded⟩
    refine ⟨⟨fun hfound => ?_, fun hruns => ?_⟩, hfirst⟩
    · exact hfound.elim Graph.runs_of_callEdge? hadded
    · rcases hruns with ⟨v, hruns⟩
      exact hfirst.isSome_of_runs hruns

/-- Deleting the edge to a name that two files share is reported as done, and the edge to the second
one is left. -/
theorem twin_edge_left_by_deletion :
    ∃ t, (do openProject .plain "."; analyze : Action Unit) (Session.ofDisk twinFiles) =
      (.ok (), t) ∧
      (t.project.graph.deleteEdge (.str "A") (.str "B")).1 = .ok true ∧
      (t.project.graph.deleteEdge (.str "A") (.str "B")).2.Runs "A" "B" (Value.ofNames ["n"]) := by
  rcases openProject_analyze_starts .plain "." (Session.ofDisk twinFiles) with ⟨_, t, hrun, -⟩
  have hgraph : t.project.graph = twinGraph :=
    (graph_of_analyze_plain hrun).trans analyzed_twinFiles
  refine ⟨t, hrun, ?_⟩
  rw [hgraph]
  exact ⟨rfl, Graph.runs_iff.2 (Or.inl (List.mem_singleton.2 rfl))⟩

end JavaDeps
