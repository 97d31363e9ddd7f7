import JavaDeps.Proofs.Operations
import JavaDeps.Proofs.Selection.Paged

/-!
# Selections that fail

A selection fails before it has changed the graph. Without page functions it writes the graph in one
step, when nothing can fail any more. With page functions in the project it first reduces the calls
to those that mention a name, and restricts the graph afterwards. The second step could fail at
labels that are no texts and at files outside the analysed directory; the first one leaves no such
labels, and there are no such files in a graph that comes from an analysis.
-/

namespace JavaDeps

/-! ## Graphs of a directory -/

/-- The graph is that of a directory, and its calls run between files below it. -/
structure Graph.Rooted (root : SourcePath) (g : Graph) : Prop where
  root : g.root = root
  below : ∀ {source target}, Linked g.calls source target → g.Below source ∧ g.Below target

namespace Graph.Rooted

variable {root : SourcePath} {g : Graph}

/-- Fewer calls of the same directory stay below it. -/
theorem of_sparser {g' : Graph} (h : g.Rooted root) (hroot : g'.root = root)
    (hcalls : Sparser g'.calls g.calls) : g'.Rooted root := by
  refine ⟨hroot, fun hlinked => ?_⟩
  have hbelow := h.below (hcalls _ _ hlinked)
  unfold Graph.Below at hbelow ⊢
  rw [hroot, ← h.root]
  exact hbelow

/-- Calls between files below the directory are rooted in it. -/
theorem of_callsIn {inside : SourcePath → Prop} (hroot : g.root = root)
    (h : CallsIn inside g.calls) (hbelow : ∀ file, inside file → g.Below file) : g.Rooted root := by
  refine ⟨hroot, fun {source target} hlinked => ?_⟩
  rcases hlinked with ⟨row, hrow, htarget⟩
  rcases List.mem_map.1 htarget with ⟨e, he, rfl⟩
  exact ⟨hbelow _ (h.source_inside _ hrow), hbelow _ (h.target_inside _ hrow e he)⟩

/-- Being rooted in a directory is stable. -/
theorem stable (root : SourcePath) : Stable (Graph.Rooted root) where
  trims hg ht := hg.of_sparser (ht.root.trans hg.root) ht.calls
  restrict {g g' chosen calls} hg hr := by
    rcases bind_eq_ok hr with ⟨r, hkept, hr⟩
    cases hr
    -- Nothing is asked of the classes, so that only the calls that are entered matter.
    exact hg.of_sparser hg.root (Restriction.sparser_ofGraph hkept)
  narrow hg hg' hkept := hg.of_sparser hg'.root (Graph.sparser_filterLabels hkept)

/-- Whatever labels there were, the reduced calls are like those of an analysis. -/
theorem callsIn_filterLabels (h : g.Rooted root) {names : List String}
    {kept : Table SourcePath (Targets SourcePath)} (hkept : filterLabels names g.calls = .ok kept) :
    CallsIn g.Below kept := by
  refine entered_filterLabels CallsIn.empty
    (fun {t source target} hlinked ht texts hsome => ?_) hkept
  have hends := h.below hlinked
  exact CallsIn.setLabels (g := { g with calls := t }) ht hends.1 hends.2 hsome

end Graph.Rooted

/-! ## Look-ups that never fail -/

namespace Store

/-- The end of a search never fails. -/
theorem endSearch_succeeds (found : Table String Value) (r : Except Fault Unit) :
    Succeeds (endSearch found r) := by
  cases r with
  | ok _ => exact Succeeds.pure found
  | error e => exact Succeeds.bind (Succeeds.say _) (fun _ => Succeeds.pure found)

theorem addControllers_succeeds (store : Store) (t : FunctionTable) (ids : List Value)
    (found : Table String Value) : Succeeds (store.addControllers t found ids) := by
  induction ids generalizing found with
  | nil => exact Succeeds.bind (Succeeds.attempt _) (fun r => endSearch_succeeds found r)
  | cons id rest ih =>
    refine Succeeds.bind (Succeeds.attempt _) (fun tried => ?_)
    cases tried with
    | ok found => exact ih found
    | error e => exact endSearch_succeeds found (.error e)

/-- The look-up of controllers never fails. -/
theorem controllers_succeeds (store : Store) (ids : Value) : Succeeds (store.controllers ids) := by
  refine Succeeds.bind (Succeeds.attempt _) (fun tried => ?_)
  cases tried with
  | ok found => exact store.addControllers_succeeds found.1 found.2 Table.empty
  | error e => exact endSearch_succeeds Table.empty (.error e)

end Store

theorem addPages_succeeds (pages : List (String × Value)) (selected : NameSet) :
    Succeeds (addPages selected pages) := by
  induction pages generalizing selected with
  | nil => exact Succeeds.pure selected
  | cons page rest ih =>
    refine Succeeds.bind (Succeeds.attempt _) (fun tried => ?_)
    cases tried with
    | ok selected => exact ih selected
    | error e => exact Succeeds.bind (Succeeds.say _) (fun _ => Succeeds.pure selected)

theorem addControllers_succeeds (g : Graph) (pages : List (String × Value)) (selected : NameSet) :
    Succeeds (addControllers g selected pages) := by
  induction pages generalizing selected with
  | nil => exact Succeeds.pure selected
  | cons page rest ih =>
    unfold addControllers
    split
    · exact Succeeds.bind (Succeeds.say _) (fun _ => ih _)
    · exact Succeeds.bind (Succeeds.say _) (fun _ => ih selected)
    · exact Succeeds.bind (Succeeds.say _) (fun _ => Succeeds.pure selected)

/-- Gathering the chosen classes never fails. -/
theorem chosenClasses_succeeds (c : Choice) : Succeeds (chosenClasses c) := by
  refine Succeeds.bind Succeeds.theProject (fun p => ?_)
  split
  · exact Succeeds.pure _
  · split
    · refine Succeeds.bind (Succeeds.say _) (fun _ => ?_)
      refine Succeeds.bind (Store.controllers_succeeds _ _) (fun found => ?_)
      exact Succeeds.bind (Succeeds.say _) (fun _ => addPages_succeeds found.entries c.classes)
    · refine Succeeds.bind (Store.controllers_succeeds _ _) (fun found => ?_)
      exact Succeeds.bind (Succeeds.say _)
        (fun _ => addControllers_succeeds p.graph found.entries c.classes)

/-! ## The two steps of a selection -/

section

variable {I : Graph → Prop}

/-- A selection that fails leaves the graph as it was. -/
theorem filterGraph_undone (ids : Value) : Undone I (filterGraph ids) := by
  unfold filterGraph
  split
  · exact Undone.of_preserves (say_then_preserves basis_apart _ (Preserves.pure ()))
  · refine Undone.after (Preserves.orFail _) (fun count => ?_)
    refine Undone.after (say_keepsBasis _) (fun _ => ?_)
    refine Undone.after (Preserves.orFail _) (fun texts => ?_)
    refine Undone.after (chosenClasses_keepsBasis _) (fun classes => ?_)
    refine Undone.after (say_keepsBasis _) (fun _ => ?_)
    refine Undone.after (fun _ => rfl) (fun g => ?_)
    -- Once the new graph is there, it is written and reported.
    have hwrite : ∀ (f : Graph → Graph) (text : String),
        Succeeds (do modifyGraph f; say text) :=
      fun f text => Succeeds.bind (Succeeds.modifyGraph f) (fun _ => Succeeds.say text)
    split
    · exact Undone.after (say_keepsBasis _) (fun _ => Undone.of_succeeds (hwrite _ _))
    · exact Undone.after (Preserves.orFail _) (fun g' => Undone.of_succeeds (hwrite _ _))

/-- A selection of calls that fails leaves the graph as it was. -/
theorem filterCalls_undone (names : Value) : Undone I (filterCalls names) := by
  unfold filterCalls
  split
  · refine Undone.after (Preserves.orFail _) (fun texts => ?_)
    refine Undone.after (say_keepsBasis _) (fun _ => ?_)
    refine Undone.after (fun _ => rfl) (fun g => ?_)
    refine Undone.after (Preserves.orFail _) (fun kept => ?_)
    refine Undone.of_succeeds (Succeeds.bind (Succeeds.modifyGraph _) (fun _ => ?_))
    exact Succeeds.bind (fun s => ⟨_, s, theGraph_run s⟩) (fun _ => Succeeds.say _)
  · exact Undone.of_preserves (Preserves.pure ())

end

/-- What the first step makes of a graph, when it succeeds. -/
theorem filterCalls_ensures {names : List String} (hne : names ≠ []) (s : Session) :
    Ensures (filterCalls (Value.ofNames names)) s (fun _ t =>
      ∃ kept, Graph.filterLabels names s.project.graph.calls = .ok kept ∧
        t.project.graph = { s.project.graph with calls := kept }) := by
  have htruthy : (Value.ofNames names).isTruthy = true := by
    simp [Value.ofNames, Value.isTruthy, hne]
  unfold filterCalls
  rw [if_pos htruthy, texts_ofNames]
  refine Ensures.bind (Ensures.of_run (orFail_ok_run names s) ?_)
  refine Ensures.bind (Ensures.of_run (say_run _ s) ?_)
  refine Ensures.bind (Ensures.of_run (theGraph_run _) ?_)
  refine Ensures.bind (Ensures.orFail (fun kept hkept => ?_))
  refine Ensures.bind (Ensures.of_run (modifyGraph_run _ _) ?_)
  refine Ensures.bind (Ensures.of_run (theGraph_run _) ?_)
  exact Ensures.of_run (say_run _ _) ⟨kept, hkept, rfl⟩

/-- The second step succeeds on calls like those of an analysis. -/
theorem filterGraph_succeeds_of {ids : Value} {texts : List String}
    (htexts : idTexts ids = .ok texts)
    {s : Session} {inside : SourcePath → Prop} (hcalls : CallsIn inside s.project.graph.calls)
    (hbelow : ∀ file, inside file → s.project.graph.Below file) :
    Leads (filterGraph ids) s (fun _ _ => True) := by
  by_cases hids : ids.isTruthy = true
  · refine filterGraph_leads_of (Q := fun _ => True) hids htexts (fun text => ?_)
    have hkeeps := (chosenClasses_keepsBasis (Choice.ofIds texts)).graph
    have hchosen := (chosenClasses_succeeds (Choice.ofIds texts)).leads hkeeps
    refine (hchosen (s.report text)).weaken (fun classes t ht => ⟨ht, ?_⟩)
    unfold Graph.selected
    split
    · exact ⟨_, rfl, trivial⟩
    · exact ⟨_, Graph.restrict_eq hcalls hbelow _ _, trivial⟩
  · -- Without ids nothing is done.
    have hnone : (!ids.isTruthy) = true := by simpa using hids
    unfold filterGraph
    rw [hnone]
    refine Leads.bind (Leads.of_run (say_run _ _) ?_)
    exact Leads.of_run (pure_run () _) trivial

/-! ## Selections -/

/-- A selection that succeeds has counted its ids, or read them one by one. -/
theorem filterProject_ensures_length {ids : Value} (hids : ids.isTruthy = true) (s : Session) :
    Ensures (filterProject ids) s (fun _ _ => ∃ n, ids.length = .ok n) := by
  refine Ensures.after (fun p t => ?_)
  split
  · refine Ensures.bind (Ensures.orFail (fun texts htexts => ?_))
    exact fun _ _ _ => length_of_idTexts htexts
  · unfold filterGraph
    rw [hids]
    refine Ensures.bind (Ensures.orFail (fun n hlength => ?_))
    exact fun _ _ _ => ⟨n, hlength⟩

section

variable (root : SourcePath)

/-- A selection with page functions that fails leaves the graph as it was. -/
theorem filterPaged_undone (ids : Value) : Undone (Graph.Rooted root) (filterPaged ids) := by
  refine filterPaged_rule Undone.orFail Undone.after (fun texts htexts names hne => ?_)
    (filterGraph_undone ids)
  -- After the reduction the restriction cannot fail.
  refine Undone.before (filterCalls_undone _) (fun s _ t hs hrun => ?_)
  rcases filterCalls_ensures hne s _ t hrun with ⟨kept, hkept, hgraph⟩
  have hcalls : CallsIn s.project.graph.Below t.project.graph.calls := by
    rw [hgraph]
    exact hs.callsIn_filterLabels hkept
  have hbelow : ∀ file, s.project.graph.Below file → t.project.graph.Below file := by
    rw [hgraph]
    exact fun _ hfile => hfile
  rcases filterGraph_succeeds_of htexts hcalls hbelow with ⟨y, u, hu, -⟩
  exact ⟨y, u, hu⟩

/-- A selection that fails leaves the graph as it was. -/
theorem filterProject_undone (ids : Value) : Undone (Graph.Rooted root) (filterProject ids) := by
  refine Undone.after (fun _ => rfl) (fun p => ?_)
  split
  · exact filterPaged_undone root ids
  · exact filterGraph_undone ids

end

/-- After the analysis of a fresh project and any selections and edits, the calls run between files
below the directory. -/
theorem openProject_analyze_rooted (depth : Depth) (root : String) (s : Session) :
    Leads (do openProject depth root; analyze) s (fun _ t => ∀ ops : List Operation,
      (Operation.afterAll ops t).project.graph.Rooted (SourcePath.ofText root)) := by
  refine (openProject_analyze_starts depth root s).weaken ?_
  rintro _ t ⟨hroot, -, hcalls⟩ ops
  have hstart : t.project.graph.Rooted (SourcePath.ofText root) :=
    Graph.Rooted.of_callsIn hroot hcalls (fun _ hfile => hfile.below hroot)
  exact Operation.afterAll_keeps (Graph.Rooted.stable _) ops hstart

end JavaDeps
