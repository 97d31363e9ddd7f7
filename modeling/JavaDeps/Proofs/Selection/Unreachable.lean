import JavaDeps.Proofs.Pages.Controllers
import JavaDeps.Proofs.Selection.History
import JavaDeps.Proofs.Selection.Labels

/-!
# Selections when the page functions cannot be reached

When the table of page functions cannot be reached, the look-ups of a selection report it and find
nothing. The selection goes on with what is left of it. A selection of page functions alone is then
one of nothing, and it takes everything out of the graph: only a graph that lists no class is kept.
-/

namespace JavaDeps

/-! ## Look-ups that fail -/

/-- The project was opened without the table of page functions, or the table cannot be reached. -/
def Session.Unreachable (s : Session) : Prop := s.project.hasStore = false ∨ s.store = none

/-- The graph, and what can be reached, are as in another session. -/
structure Session.Beside (s t : Session) : Prop where
  graph : t.project.graph = s.project.graph
  hasStore : t.project.hasStore = s.project.hasStore
  store : t.store = s.store

namespace Session.Beside

variable {s t u : Session}

theorem refl (s : Session) : s.Beside s := ⟨rfl, rfl, rfl⟩

theorem trans (h : s.Beside t) (h' : t.Beside u) : s.Beside u :=
  ⟨h'.graph.trans h.graph, h'.hasStore.trans h.hasStore, h'.store.trans h.store⟩

theorem report (h : s.Beside t) (text : String) : s.Beside (t.report text) :=
  h.trans ⟨rfl, rfl, rfl⟩

theorem unreachable (h : s.Beside t) (hs : s.Unreachable) : t.Unreachable := by
  unfold Session.Unreachable
  rw [h.hasStore, h.store]
  exact hs

end Session.Beside

section

variable {s : Session}

/-- Without the table no controllers are found. -/
theorem controllers_fail (h : s.store = none) (store : Store) (ids : Value) :
    Leads (store.controllers ids) s (fun found t => found = Table.empty ∧ s.Beside t) := by
  refine Leads.bind (Leads.of_run (connect_fails h _) ?_)
  refine Leads.bind (Leads.of_run (say_run _ s) ?_)
  exact Leads.of_run (pure_run _ _) ⟨rfl, (Session.Beside.refl s).report _⟩

/-- Without the table no page function is found. -/
theorem byId_fails (h : s.store = none) (store : Store) (id : Value) :
    Leads (store.byId id) s (fun found? t => found? = none ∧ s.Beside t) := by
  refine Leads.bind (Leads.of_run (connect_fails h _) ?_)
  refine Leads.bind (Leads.of_run (say_run _ s) ?_)
  exact Leads.of_run (pure_run _ _) ⟨rfl, (Session.Beside.refl s).report _⟩

/-- Without the table, no class is added to those that were chosen. -/
theorem chosenClasses_unreachable (h : s.Unreachable) (c : Choice) :
    Leads (chosenClasses c) s (fun classes t => classes = c.classes ∧ s.Beside t) := by
  refine Leads.bind (Leads.of_run (theProject_run s) ?_)
  split
  · exact Leads.of_run (pure_run _ s) ⟨rfl, Session.Beside.refl s⟩
  · rename_i hasked
    -- The table is asked only if it could be reached when the project was opened.
    have hstore : s.store = none := by
      refine h.resolve_left (fun hno => ?_)
      simp [hno] at hasked
    split
    · refine Leads.bind (Leads.of_run (say_run _ s) ?_)
      refine Leads.bind ((controllers_fail (s := s.report _) hstore _ _).weaken ?_)
      rintro found t ⟨rfl, ht⟩
      refine Leads.bind (Leads.of_run (say_run _ t) ?_)
      exact Leads.of_run (pure_run _ _)
        ⟨rfl, (((Session.Beside.refl s).report _).trans ht).report _⟩
    · refine Leads.bind ((controllers_fail hstore _ _).weaken ?_)
      rintro found t ⟨rfl, ht⟩
      refine Leads.bind (Leads.of_run (say_run _ t) ?_)
      exact Leads.of_run (pure_run _ _) ⟨rfl, ht.report _⟩

/-- Without the table, no page function is found: the first look-up fails, or all answer nothing. -/
theorem findPages_unreachable (h : s.Unreachable) (numbers : List Int) :
    Leads (findPages {} numbers) s (fun found t => found.1 = {} ∧ s.Beside t ∧
      (found.2 = none → numbers = [] ∨ s.store = none)) := by
  induction numbers generalizing s with
  | nil => exact Leads.of_run (pure_run _ s) ⟨rfl, Session.Beside.refl s, fun _ => Or.inl rfl⟩
  | cons n rest ih =>
    by_cases hasked : s.project.hasStore = true
    · have hstore : s.store = none := h.resolve_left (by simp [hasked])
      rcases byId_fails hstore Store.standard (.str (Store.idMark ++ Text.ofInt n)) with
        ⟨_, t, hrun, rfl, ht⟩
      have hpage : findPage n s = (.ok none, t) := by
        rw [findPage, bind_run, theProject_run]
        simp only [hasked, if_true]
        exact hrun
      refine Leads.bind (Leads.of_run (x := .ok none) (t := t) (by rw [attempt_run, hpage]) ?_)
      refine (ih (ht.unreachable h)).weaken ?_
      rintro found u ⟨hfound, hu, -⟩
      exact ⟨hfound, ht.trans hu, fun _ => Or.inr hstore⟩
    · have hpage : findPage n s = (.error (.noMember "NoneType" "get_function_by_id"), s) := by
        rw [findPage, bind_run, theProject_run]
        simp only [hasked]
        rfl
      refine Leads.bind (Leads.of_run (attempt_run _ s) ?_)
      rw [hpage]
      exact Leads.of_run (pure_run _ s) ⟨rfl, Session.Beside.refl s, fun hnone => by cases hnone⟩

theorem pageNumbers_nil {ids : List String} (h : pageNumbers ids = .ok []) : ids = [] := by
  cases ids with
  | nil => rfl
  | cons id rest =>
    unfold pageNumbers at h
    dsimp only at h
    split at h
    · rcases bind_eq_ok h with ⟨numbers, -, h⟩
      cases h
    · cases h

/-- Without the table no pages are chosen. -/
theorem choosePages_unreachable (h : s.Unreachable) {ids : List String} (hne : ids ≠ []) :
    Leads (choosePages ids) s (fun found t => found.1 = [] ∧ s.Beside t) := by
  unfold choosePages
  split
  · exact Leads.of_run (pure_run _ s) ⟨rfl, Session.Beside.refl s⟩
  · rename_i numbers hnumbers
    refine Leads.bind ((findPages_unreachable h numbers).weaken ?_)
    rintro ⟨found, fault?⟩ t ⟨rfl, ht, hnone⟩
    cases fault? with
    | some e => exact Leads.of_run (pure_run _ t) ⟨rfl, ht⟩
    | none =>
      -- All look-ups answered nothing; so does the one for controllers, and no function is kept.
      have hstore : s.store = none := by
        refine (hnone rfl).resolve_left (fun hnil => ?_)
        exact hne (pageNumbers_nil (hnil ▸ hnumbers))
      rcases controllers_fail (ht.store.trans hstore) Store.standard (Value.ofNames ids) with
        ⟨_, u, hrun, rfl, hu⟩
      refine Leads.bind (Leads.of_run (attempt_run _ t) ?_)
      rw [bind_run, hrun]
      exact Leads.of_run (pure_run _ _) ⟨rfl, (ht.trans hu).trans ⟨rfl, rfl, rfl⟩⟩

end

/-! ## Restricting to nothing -/

def Graph.cleared (g : Graph) : Graph :=
  { g with
    classes := Table.empty
    declared := Table.empty
    closed := true
    calls := Table.empty }.showAll

namespace Restriction

theorem foldl_keepClass_empty (g : Graph) (entries : List (String × SourcePath)) (r : Restriction) :
    entries.foldl (keepClass g SortedSet.empty) r = r := by
  induction entries with
  | nil => rfl
  | cons e rest ih => exact ih

/-- If nothing is chosen, no edge is kept. -/
theorem visitSource_empty (g : Graph) (r : Restriction) (e : SourcePath × Targets SourcePath) :
    visitSource g SortedSet.empty SortedSet.empty r e = .ok r := by
  have hnone : declaresChosen g SortedSet.empty e.1 = false :=
    List.any_eq_false.2 (fun _ _ => Bool.false_ne_true)
  unfold visitSource choosesFile
  rw [hnone]
  rfl

theorem foldlM_visitSource_empty (g : Graph) (entries : List (SourcePath × Targets SourcePath))
    (r : Restriction) :
    entries.foldlM (visitSource g SortedSet.empty SortedSet.empty) r = .ok r := by
  induction entries with
  | nil => rfl
  | cons e rest ih =>
    rw [List.foldlM_cons, visitSource_empty]
    exact ih

end Restriction

/-- If nothing is chosen, the restricted graph is cleared. -/
theorem Graph.restrict_nothing (g : Graph) :
    g.restrict SortedSet.empty SortedSet.empty = .ok g.cleared := by
  unfold restrict Restriction.ofGraph
  rw [Restriction.keepClasses_eq, Restriction.foldl_keepClass_empty,
    Restriction.foldlM_visitSource_empty]
  rfl

/-- What a selection of nothing makes of a graph: without classes there is nothing to take out. -/
theorem filterGraph_unreachable {s : Session} (h : s.Unreachable) {ids : List String}
    (hne : ids ≠ []) (hpages : ∀ id ∈ ids, Text.starts id Choice.pageMark = true) :
    Leads (filterGraph (Value.ofNames ids)) s (fun _ t => t.project.graph =
      if s.project.graph.classes.size = 0 then s.project.graph.showAll
      else s.project.graph.cleared) := by
  have htruthy : (Value.ofNames ids).isTruthy = true := by
    simp [Value.ofNames, Value.isTruthy, hne]
  refine filterGraph_leads_of (Q := fun g => g = if s.project.graph.classes.size = 0 then
    s.project.graph.showAll else s.project.graph.cleared) htruthy (idTexts_ofNames ids)
      (fun text => ?_)
  rw [ofIds_pages hpages]
  have hreported := (Session.Beside.refl s).report text
  refine (chosenClasses_unreachable (hreported.unreachable h) _).weaken ?_
  rintro classes t ⟨rfl, ht⟩
  refine ⟨(hreported.trans ht).graph, ?_⟩
  unfold Graph.selected
  by_cases hsize : s.project.graph.classes.size = 0
  · have hall : keepsAll (SortedSet.empty : NameSet).size s.project.graph.classes.size = true := by
      rw [hsize]
      rfl
    rw [if_pos hall, if_pos hsize]
    exact ⟨_, rfl, rfl⟩
  · have hall : ¬ keepsAll (SortedSet.empty : NameSet).size s.project.graph.classes.size =
        true := by
      intro hall
      have hle : 4 * s.project.graph.classes.size ≤ 5 * 0 := of_decide_eq_true hall
      omega
    rw [if_neg hall, if_neg hsize]
    exact ⟨_, Graph.restrict_nothing _, rfl⟩

/-- Pages that cannot be looked up clear the graph. -/
theorem filterProject_unreachable {s : Session} (h : s.Unreachable) {ids : List String}
    (hne : ids ≠ []) (hpages : ∀ id ∈ ids, Text.starts id Choice.pageMark = true) :
    Leads (filterProject (Value.ofNames ids)) s (fun _ t => t.project.graph =
      if s.project.graph.classes.size = 0 then s.project.graph.showAll
      else s.project.graph.cleared) := by
  refine Leads.bind (Leads.of_run (theProject_run s) ?_)
  split
  · -- With page functions in the project they are looked up once more, and no names are found.
    have hall : ids.filter (fun id => Text.starts id Choice.pageMark) = ids :=
      List.filter_eq_self.2 hpages
    have hothers : ids.filter (fun id => !Text.starts id Choice.pageMark) = [] :=
      List.filter_eq_nil_iff.2 (fun id hid => by simp [hpages id hid])
    have hsome : (!ids.isEmpty) = true := by simpa using hne
    unfold filterPaged
    rw [idTexts_ofNames]
    refine Leads.bind (Leads.of_run (orFail_ok_run ids s) ?_)
    simp only [hall, hothers, hsome, if_true]
    refine Leads.bind ((choosePages_unreachable h hne).weaken ?_)
    rintro ⟨names, fault?⟩ t ⟨hnames, ht⟩
    cases hnames
    cases fault? with
    | none =>
      refine (filterGraph_unreachable (ht.unreachable h) hne hpages).weaken (fun _ u hu => ?_)
      rw [hu, ht.graph]
    | some e =>
      refine Leads.bind (Leads.of_run (say_run _ t) ?_)
      have hreported := ht.report ("❌ Error processing HTML functions in filter: " ++ e.message)
      refine (filterGraph_unreachable (hreported.unreachable h) hne hpages).weaken
        (fun _ u hu => ?_)
      rw [hu, hreported.graph]
  · exact filterGraph_unreachable h hne hpages

/-- When the table of page functions cannot be reached, a selection of page functions alone
succeeds. The classes, the files and the calls are kept exactly if no class is listed; otherwise all
of them are taken out. -/
theorem failed_lookup_clears_graph (s : Session) (ids : List String) (hne : ids ≠ [])
    (hpages : ∀ id ∈ ids, Text.starts id Choice.pageMark = true) (hfails : s.Unreachable) :
    ∃ t, filterProject (Value.ofNames ids) s = (.ok (), t) ∧
      (t.project.graph.SameTables s.project.graph ↔ s.project.graph.classes = Table.empty) ∧
      (s.project.graph.classes ≠ Table.empty →
        t.project.graph.classes = Table.empty ∧ t.project.graph.declared = Table.empty ∧
          t.project.graph.calls = Table.empty) := by
  rcases filterProject_unreachable hfails hne hpages with ⟨_, t, hrun, hgraph⟩
  have hsize : s.project.graph.classes.size = 0 ↔ s.project.graph.classes = Table.empty := by
    rcases s.project.graph.classes with ⟨entries⟩
    simp [Table.size, Table.empty]
  refine ⟨t, hrun, ?_⟩
  by_cases hempty : s.project.graph.classes = Table.empty
  · rw [hgraph, if_pos (hsize.2 hempty)]
    exact ⟨⟨fun _ => hempty, fun _ => ⟨rfl, rfl, rfl⟩⟩, fun hsome => absurd hempty hsome⟩
  · rw [hgraph, if_neg (fun hzero => hempty (hsize.1 hzero))]
    refine ⟨⟨fun hsame => hsame.classes.symm, fun hnone => absurd hnone hempty⟩, fun _ => ?_⟩
    exact ⟨rfl, rfl, rfl⟩

/-- Two files with a class each, opened with a table of page functions that cannot be reached any
more. -/
def strandedSession : Session :=
  { Session.ofDisk pairFiles with
    project := { depth := .paged, hasStore := true, graph := pairGraph } }

theorem strandedSession_cleared :
    ["html_1", "html_x"] ≠ [] ∧
      (∀ id ∈ ["html_1", "html_x"], Text.starts id Choice.pageMark = true) ∧
      strandedSession.Unreachable ∧ pairGraph.classes ≠ Table.empty ∧
      ∃ t, filterProject (Value.ofNames ["html_1", "html_x"]) strandedSession = (.ok (), t) ∧
        t.project.graph.classes = Table.empty ∧ t.project.graph.declared = Table.empty ∧
        t.project.graph.calls = Table.empty := by
  have hne : ["html_1", "html_x"] ≠ [] := by decide
  have hpages : ∀ id ∈ ["html_1", "html_x"], Text.starts id Choice.pageMark = true := by decide
  have hclasses : pairGraph.classes ≠ Table.empty := by decide
  rcases failed_lookup_clears_graph strandedSession ["html_1", "html_x"] hne hpages
    (Or.inr rfl) with
    ⟨t, hrun, -, hcleared⟩
  exact ⟨hne, hpages, Or.inr rfl, hclasses, t, hrun, hcleared hclasses⟩

/-- After an analysis without a table of page functions, choosing a page function loses a class. -/
theorem class_lost_without_table :
    ∃ t u, (do openProject .plain "."; analyze : Action Unit) (Session.ofDisk pairFiles) =
      (.ok (), t) ∧
      t.Unreachable ∧ filterProject (Value.ofNames ["html_1"]) t = (.ok (), u) ∧
      t.project.graph.classes.get? "A" = some ⟨"", ["A.java"]⟩ ∧
      u.project.graph.classes.get? "A" = none := by
  have hspelled : ∀ text, ∀ name ∈ Java.declaredTypes text, True ∧ True := by simp
  rcases @openProject_analyze_plain (fun _ => True) hspelled "." (Session.ofDisk pairFiles) with
    ⟨_, t, hrun, -⟩
  have hgraph : t.project.graph = pairGraph :=
    (graph_of_analyze_plain hrun).trans analyzed_pairFiles
  have hstore : t.store = none := by
    have ht : t =
        ((do openProject .plain "."; analyze : Action Unit) (Session.ofDisk pairFiles)).2 := by
      rw [hrun]
    have hnone : t.store.isNone = true := by
      rw [ht]
      decide +kernel
    exact Option.isNone_iff_eq_none.1 hnone
  have hne : ["html_1"] ≠ [] := by decide
  rcases filterProject_unreachable (Or.inr hstore) hne (by decide) with ⟨_, u, hrun', hcleared⟩
  refine ⟨t, u, hrun, Or.inr hstore, hrun', ?_, ?_⟩
  · rw [hgraph]
    rfl
  · rw [hcleared, hgraph]
    rfl

end JavaDeps
