import JavaDeps.Proofs.Operations
import JavaDeps.Proofs.Selection.Filter

/-!
# What a selection keeps

A selection that restricts the graph goes through its edges one by one. It first asks whether both
files are chosen, and for that looks for their paths anywhere in the chosen calls. Whatever this
finds, the edges that are kept in the end are those with a label that is chosen by its full text,
and those between two files that declare chosen classes.
-/

namespace JavaDeps

/-! ## Tables of which some edges are kept -/

def keptRow (f : Arc → Option Labels) (source : SourcePath) (row : Targets SourcePath) :
    Targets SourcePath :=
  row.choose (fun target l => f ⟨source, target, l⟩)

/-- The table with the edges that are kept. Rows without an edge are left out. -/
def keptTable (f : Arc → Option Labels) (calls : Table SourcePath (Targets SourcePath)) :
    Table SourcePath (Targets SourcePath) :=
  calls.choose (fun source row =>
    if (keptRow f source row).entries = [] then none else some (keptRow f source row))

section

variable (f : Arc → Option Labels)

/-- Kept rows hold the arcs with the labels that are kept. -/
theorem rowArcs_keptRow (source : SourcePath) (row : Targets SourcePath) :
    rowArcs source (keptRow f source row).entries =
      (rowArcs source row.entries).filterMap
        (fun a => (f a).map (fun l => { a with labels := l })) := by
  simp only [rowArcs, keptRow, Table.choose, List.map_filterMap, List.filterMap_map]
  refine List.filterMap_congr (fun x _ => ?_)
  cases hx : f ⟨source, x.1, x.2⟩ <;> simp [hx]

/-- A kept table holds the arcs with the labels that are kept. -/
theorem arcsOf_keptTable (calls : Table SourcePath (Targets SourcePath)) :
    arcsOf (keptTable f calls) =
      (arcsOf calls).filterMap (fun a => (f a).map (fun l => { a with labels := l })) := by
  rcases calls with ⟨entries, distinct⟩
  simp only [arcsOf, keptTable, Table.choose]
  clear distinct
  induction entries with
  | nil => rfl
  | cons e rest ih =>
    rw [List.flatMap_cons, List.filterMap_append, ← ih, ← rowArcs_keptRow]
    by_cases hrow : (keptRow f e.1 e.2).entries = []
    · simp [hrow, rowArcs]
    · simp [hrow]

/-- A kept table is put together from its edges. -/
theorem foldl_keptTable (calls : Table SourcePath (Targets SourcePath)) :
    (arcsOf (keptTable f calls)).foldl enterArc Table.empty = keptTable f calls := by
  refine foldl_enterArc (fun e he => ?_)
  rcases List.mem_filterMap.1 he with ⟨row, -, hkept⟩
  rcases Option.map_eq_some_iff.1 hkept with ⟨kept, hsome, rfl⟩
  by_cases hrow : (keptRow f row.1 row.2).entries = []
  · simp [hrow] at hsome
  · simp only [hrow, if_false, Option.some.injEq] at hsome
    rwa [← hsome]

end

/-- Keeping arcs enters them into the calls. -/
theorem Restriction.calls_foldl_keepArc (g : Graph) (arcs : List Arc) (r : Restriction) :
    (arcs.foldl (keepArc g) r).calls = arcs.foldl enterArc r.calls := by
  induction arcs generalizing r with
  | nil => rfl
  | cons a rest ih =>
    rw [List.foldl_cons, List.foldl_cons, ih, keepArc, calls_keepEdge]
    rfl

/-- A restriction succeeds and keeps the edges in their order. -/
theorem Graph.restrict_arcs {g : Graph} (h : g.Passable) (chosen calls : NameSet) :
    ∃ g', g.restrict chosen calls = .ok g' ∧
      arcsOf g'.calls = (arcsOf g.calls).filterMap (g.keptArc chosen calls) := by
  have hkept := arcsOf_keptTable (g.keptLabels chosen calls) g.calls
  simp only [restrict, Restriction.ofGraph_arcs h, bind, Except.bind]
  refine ⟨_, rfl, ?_⟩
  show arcsOf (((arcsOf g.calls).filterMap (g.keptArc chosen calls)).foldl
    (Restriction.keepArc g) (Restriction.keepClasses g chosen)).calls = _
  rw [Restriction.calls_foldl_keepArc, Restriction.keepClasses_calls]
  -- The kept edges are those of a table, which entering them one by one builds up again.
  exact (congrArg (fun arcs => arcsOf (arcs.foldl enterArc Table.empty)) hkept.symm).trans
    ((congrArg arcsOf (foldl_keptTable _ _)).trans hkept)

/-! ## What is kept of an edge -/

namespace Graph

def Declares (g : Graph) (classes : List String) (file : SourcePath) : Prop :=
  ∃ name ∈ (g.classesOf file).toList, name ∈ classes

instance (g : Graph) (classes : List String) (file : SourcePath) :
    Decidable (g.Declares classes file) :=
  inferInstanceAs (Decidable (∃ name ∈ (g.classesOf file).toList, name ∈ classes))

def namedIn (g : Graph) (calls : List String) (a : Arc) : List Value :=
  a.labels.items.filter (fun m =>
    m.display ++ "_" ++ g.pathText a.source ++ "_" ++ g.pathText a.target ∈ calls)

/-- What is kept of an edge for chosen classes and calls. -/
def remains (g : Graph) (classes calls : List String) (a : Arc) : Option Arc :=
  if calls = [] then
    if g.Declares classes a.source ∧ g.Declares classes a.target then some a else none
  else if g.namedIn calls a ≠ [] then some { a with labels := ⟨.list (g.namedIn calls a), none⟩ }
  else if a.labels.value.isTruthy = true ∧ g.Declares classes a.source ∧
      g.Declares classes a.target then some a
  else none

/-- An arc is kept by lists of names exactly if it remains. -/
theorem keptArc_ofList (g : Graph) (classes calls : List String) (a : Arc) :
    g.keptArc (SortedSet.ofList classes) (SortedSet.ofList calls) a =
      g.remains classes calls a := by
  have hnamed : g.namedLabels (SortedSet.ofList calls) a = g.namedIn calls a := by
    refine List.filter_congr (fun m _ => ?_)
    rw [Bool.eq_iff_iff, contains_ofList_names, decide_eq_true_eq]
  have hdeclares : ∀ file, Restriction.declaresChosen g (SortedSet.ofList classes) file = true ↔
      g.Declares classes file := by
    intro file
    simp only [Restriction.declaresChosen, List.any_eq_true, contains_ofList_names, Declares]
  have hempty : (SortedSet.ofList calls).isEmpty = true ↔ calls = [] := by
    constructor
    · intro h
      refine List.eq_nil_iff_forall_not_mem.2 (fun call hcall => ?_)
      have hmem := contains_ofList_names.2 hcall
      rw [SortedSet.contains, List.isEmpty_iff.1 h] at hmem
      cases hmem
    · rintro rfl
      rfl
  unfold keptArc keptLabels remains
  simp only [hnamed, hdeclares, hempty]
  -- Without chosen calls no label is named, and edges without labels are kept as well.
  by_cases hcalls : calls = []
  · have hnone : g.namedIn calls a = [] := by simp [namedIn, hcalls]
    rw [if_neg (not_not.2 hnone), if_pos hcalls]
    by_cases hboth : g.Declares classes a.source ∧ g.Declares classes a.target
    · rw [if_pos ⟨hboth, Or.inl hcalls⟩, if_pos hboth]
      rfl
    · rw [if_neg (fun h => hboth h.1), if_neg hboth]
      rfl
  · rw [if_neg hcalls]
    by_cases hnone : g.namedIn calls a = []
    · rw [if_neg (not_not.2 hnone), if_neg (not_not.2 hnone)]
      by_cases hwhole : a.labels.value.isTruthy = true ∧ g.Declares classes a.source ∧
          g.Declares classes a.target
      · rw [if_pos ⟨hwhole.2, Or.inr hwhole.1⟩, if_pos hwhole]
        rfl
      · rw [if_neg (fun h => hwhole ⟨h.2.resolve_left hcalls, h.1⟩), if_neg hwhole]
        rfl
    · rw [if_pos hnone, if_pos hnone]
      rfl

end Graph

/-! ## Selections -/

/-- A selection of less than four fifths of the classes keeps of every edge what remains of it for
the chosen classes and calls, in the old order. Ids without a mark choose nothing, and ids of calls
are read by their full text. -/
theorem selection_keeps_exactly (s : Session) (hpassable : s.project.graph.Passable)
    (ids : List String) (hne : ids ≠ []) (hids : NoPages ids)
    (hfew : 5 * (ids.filterMap Choice.classOf?).dedup.length < 4 * s.project.graph.classes.size) :
    ∃ t, filterGraph (Value.ofNames ids) s = (.ok (), t) ∧
      arcsOf t.project.graph.calls = (arcsOf s.project.graph.calls).filterMap
        (s.project.graph.remains (ids.filterMap Choice.classOf?)
          (ids.filterMap Choice.namedCall?)) := by
  have htruthy : (Value.ofNames ids).isTruthy = true := by
    simp [Value.ofNames, Value.isTruthy, hne]
  rcases filterGraph_run htruthy (idTexts_ofNames ids) s with ⟨text, hrun⟩
  rcases hrun _ _ (chosenClasses_run (pages_ofIds hids) _) with ⟨log, hlog⟩
  rcases Graph.restrict_arcs hpassable (Choice.ofIds ids).classes (Choice.ofIds ids).calls with
    ⟨g, hg, harcs⟩
  have hselected : s.project.graph.selected (Choice.ofIds ids).classes (Choice.ofIds ids).calls =
      .ok g := by
    -- Repeated ids choose a class once, so the classes are counted without repetitions.
    have hsome : ¬ keepsAll (Choice.ofIds ids).classes.size s.project.graph.classes.size =
        true := by
      rw [Choice.ofIds_eq, SortedSet.size_ofList, keepsAll, decide_eq_true_eq]
      omega
    rw [Graph.selected, if_neg hsome, hg]
  rw [Session.selecting, Session.report_project, hselected] at hlog
  refine ⟨_, hlog, ?_⟩
  rw [Choice.ofIds_eq] at harcs
  simpa only [Graph.keptArc_ofList] using harcs

/-- After the analysis of a project every selection can go through its edges. -/
theorem openProject_analyze_passable (depth : Depth) (root : String) (s : Session) :
    Leads (do openProject depth root; analyze) s (fun _ t => t.project.graph.Passable) := by
  refine (openProject_analyze_starts depth root s).weaken ?_
  rintro _ t ⟨hroot, -, hcalls⟩
  exact Graph.Passable.of_callsIn hcalls (fun _ hfile => hfile.below hroot)

/-- Three files with a class each. There are underscores in the name of a file and of a call. -/
def underscoredFiles : Disk :=
  (((default : Disk).put (SourcePath.ofText "a_1.java")
      (.text "class A \x7b int x = B.m_x(); int y = B.n(); int z = C.z(); \x7d")).put
    (SourcePath.ofText "b.java") (.text "class B \x7b int k = C.k(); int l = C.l(); \x7d")).put
    (SourcePath.ofText "c.java") (.text "class C \x7b \x7d")

/-- Of the edge from `a_1` to `b` the chosen call is kept, that to `c` is dropped, and the one
between the chosen classes is kept whole. -/
theorem underscored_selection :
    ∃ t u, (do openProject .plain "."; analyze : Action Unit) (Session.ofDisk underscoredFiles) =
        (.ok (), t) ∧
      filterGraph (Value.ofNames ["class_B", "class_C", "method_m_x_a_1.java_b.java"]) t =
        (.ok (), u) ∧
      (arcsOf u.project.graph.calls).map (fun e => (e.source.toText, e.target.toText,
        e.labels.names)) = [("a_1.java", "b.java", ["m_x"]), ("b.java", "c.java", ["k", "l"])] := by
  rcases openProject_analyze_passable .plain "." (Session.ofDisk underscoredFiles) with
    ⟨_, t, hrun, hpassable⟩
  have hkept : 5 * (["class_B", "class_C", "method_m_x_a_1.java_b.java"].filterMap
        Choice.classOf?).dedup.length < 4 * t.project.graph.classes.size ∧
      ((arcsOf t.project.graph.calls).filterMap (t.project.graph.remains ["B", "C"]
        ["m_x_a_1.java_b.java"])).map
          (fun e => (e.source.toText, e.target.toText, e.labels.names)) =
        [("a_1.java", "b.java", ["m_x"]), ("b.java", "c.java", ["k", "l"])] := by
    rw [graph_of_analyze_plain hrun]
    decide +kernel
  rcases selection_keeps_exactly t hpassable
    ["class_B", "class_C", "method_m_x_a_1.java_b.java"] (by simp) (by decide) hkept.1 with
    ⟨u, hselect, harcs⟩
  refine ⟨t, u, hrun, hselect, ?_⟩
  rw [harcs]
  exact hkept.2

end JavaDeps
