import JavaDeps.Proofs.Analysis.Plain
import JavaDeps.Proofs.Except
import JavaDeps.Proofs.Selection.Choice
import JavaDeps.Proofs.Selection.Restrict
import JavaDeps.Selection.Filter

/-!
# Runs of a selection

A selection of classes and calls succeeds on the graphs of an analysis. It leaves the graph as it is
when nothing or nearly everything is chosen, and restricts it otherwise.
-/

namespace JavaDeps

/-! ## Ids -/

theorem idTexts_ofNames (ids : List String) : idTexts (Value.ofNames ids) = .ok ids := by
  have hmap : ∀ ids : List String,
      (ids.map Value.str).mapM (Value.textFor "startswith") = .ok ids := by
    intro ids
    induction ids with
    | nil => rfl
    | cons id rest ih =>
      rw [List.map_cons, List.mapM_cons, ih]
      rfl
  exact hmap ids

/-! ## Graphs -/

namespace Graph

/-- A selection keeps the whole graph: nothing is chosen, or four fifths of the classes are. -/
def KeepsWhole (g : Graph) (ids : List String) : Prop :=
  ids = [] ∨ keepsAll (Choice.ofIds ids).classes.size g.classes.size = true

def filtered (g : Graph) (ids : List String) : Graph :=
  if ids = [] then g
  else if keepsAll (Choice.ofIds ids).classes.size g.classes.size then g.showAll
  else g.restricted (Choice.ofIds ids).classes (Choice.ofIds ids).calls

/-- A selection that keeps the whole graph shows it as it is, or all of it. -/
theorem filtered_of_keepsWhole {g : Graph} {ids : List String} (h : g.KeepsWhole ids) :
    g.filtered ids = g ∨ g.filtered ids = g.showAll := by
  unfold filtered
  by_cases hids : ids = []
  · exact Or.inl (if_pos hids)
  · rw [if_neg hids, if_pos (h.resolve_left hids)]
    exact Or.inr rfl

/-- Any other selection restricts the graph to what it chooses. -/
theorem filtered_of_not_keepsWhole {g : Graph} {ids : List String} (h : ¬ g.KeepsWhole ids) :
    g.filtered ids = g.restricted (Choice.ofIds ids).classes (Choice.ofIds ids).calls := by
  unfold filtered
  rw [if_neg (fun hids => h (Or.inl hids)), if_neg (fun hall => h (Or.inr hall))]

end Graph

/-- The files of an analysis lie below the analysed directory. -/
theorem Disk.Lists.below {d : Disk} {root file : SourcePath} (h : d.Lists root file) {g : Graph}
    (hroot : g.root = root) : g.Below file := by
  rcases h.child with ⟨parts, -, -, rfl⟩
  rw [Graph.Below, hroot, SourcePath.relativeTo?_child]
  rfl

/-! ## Runs -/

theorem chosenClasses_run {c : Choice} (h : c.pages = []) (s : Session) :
    chosenClasses c s = (.ok c.classes, s) := by
  simp only [chosenClasses, bind_run, theProject_run, h, List.isEmpty_nil, Bool.true_or, if_true]
  rfl

def Graph.selected (g : Graph) (classes calls : NameSet) : Except Fault Graph :=
  if keepsAll classes.size g.classes.size then .ok g.showAll else g.restrict classes calls

/-- What a selection leads to once the chosen classes are known, apart from the report. -/
def Session.selecting (s : Session) (classes calls : NameSet) (log : List String) :
    Except Fault Unit × Session :=
  match s.project.graph.selected classes calls with
  | .ok g => (.ok (), { s with project := { s.project with graph := g }, log := log })
  | .error e => (.error e, { s with log := log })

/-- A value that lists ids has a length. -/
theorem length_of_idTexts {ids : Value} {texts : List String} (h : idTexts ids = .ok texts) :
    ∃ n, ids.length = .ok n := by
  rcases bind_eq_ok h with ⟨items, hitems, -⟩
  unfold Value.elements at hitems
  unfold Value.length
  split at hitems
  · exact ⟨_, rfl⟩
  · exact ⟨_, rfl⟩
  · exact ⟨_, rfl⟩
  · cases hitems

/-- The run of a selection, whatever look-ups the chosen classes need. -/
theorem filterGraph_run {ids : Value} (hids : ids.isTruthy = true) {texts : List String}
    (htexts : idTexts ids = .ok texts) (s : Session) :
    ∃ text, ∀ classes t, chosenClasses (Choice.ofIds texts) (s.report text) = (.ok classes, t) →
      ∃ log, filterGraph ids s = t.selecting classes (Choice.ofIds texts).calls log := by
  have hsome : (!ids.isTruthy) = false := by simp [hids]
  rcases length_of_idTexts htexts with ⟨n, hlength⟩
  refine ⟨"🔍 Processing " ++ Text.ofNat n ++ " selected functions...", fun classes t hchosen => ?_⟩
  unfold filterGraph Session.selecting Graph.selected
  rw [hsome, hlength, htexts]
  simp only [Bool.false_eq_true, if_false, bind_run, orFail_ok_run, say_run, hchosen, theGraph_run,
    Session.report_project]
  by_cases hall : keepsAll classes.size t.project.graph.classes.size = true
  · simp only [hall, if_true, bind_run, say_run, modifyGraph_run]
    exact ⟨_, rfl⟩
  · simp only [hall, Bool.false_eq_true, if_false, bind_run]
    cases t.project.graph.restrict classes (Choice.ofIds texts).calls with
    | ok g => exact ⟨_, rfl⟩
    | error e => exact ⟨_, rfl⟩

/-- A selection of classes and calls succeeds, and only the graph is changed. -/
theorem filterGraph_leads {inside : SourcePath → Prop} {s : Session} {ids : List String}
    (hids : NoPages ids) (hcalls : CallsIn inside s.project.graph.calls)
    (hbelow : ∀ file, inside file → s.project.graph.Below file) :
    Leads (filterGraph (Value.ofNames ids)) s (fun _ t => t.disk = s.disk ∧
      t.project = { s.project with graph := s.project.graph.filtered ids }) := by
  by_cases hempty : ids = []
  · subst hempty
    refine Leads.bind (Leads.of_run (say_run _ _) ?_)
    exact Leads.of_run (pure_run () _) (by simp [Graph.filtered])
  · have htruthy : (Value.ofNames ids).isTruthy = true := by
      simp [Value.ofNames, Value.isTruthy, hempty]
    rcases filterGraph_run htruthy (idTexts_ofNames ids) s with ⟨text, hrun⟩
    rcases hrun _ _ (chosenClasses_run (pages_ofIds hids) _) with ⟨log, hlog⟩
    have hselected : s.project.graph.selected (Choice.ofIds ids).classes (Choice.ofIds ids).calls =
        .ok (s.project.graph.filtered ids) := by
      unfold Graph.selected Graph.filtered
      rw [if_neg hempty, Graph.restrict_eq hcalls hbelow]
      split <;> rfl
    rw [Session.selecting, Session.report_project, hselected] at hlog
    exact Leads.of_run hlog ⟨rfl, rfl⟩

/-- A selection leads to what becomes of the graph. -/
theorem filterGraph_leads_of {ids : Value} (hids : ids.isTruthy = true) {texts : List String}
    (htexts : idTexts ids = .ok texts) {s : Session} {Q : Graph → Prop}
    (hchosen : ∀ text, Leads (chosenClasses (Choice.ofIds texts)) (s.report text) (fun classes t =>
      t.project.graph = s.project.graph ∧
        ∃ g, s.project.graph.selected classes (Choice.ofIds texts).calls = .ok g ∧ Q g)) :
    Leads (filterGraph ids) s (fun _ t => Q t.project.graph) := by
  rcases filterGraph_run hids htexts s with ⟨text, hrun⟩
  rcases hchosen text with ⟨classes, t, ht, hgraph, g, hg, hQ⟩
  rcases hrun classes t ht with ⟨log, hlog⟩
  rw [Session.selecting, hgraph, hg] at hlog
  exact Leads.of_run hlog hQ

/-- After a selection the graph is again one on which selections succeed. -/
theorem Graph.filtered_callsIn {inside : SourcePath → Prop} {g : Graph} (h : CallsIn inside g.calls)
    (ids : List String) : CallsIn inside (g.filtered ids).calls := by
  unfold filtered
  split
  · exact h
  · split
    · exact h
    · exact restricted_callsIn h _ _

theorem Graph.root_filtered (g : Graph) (ids : List String) : (g.filtered ids).root = g.root := by
  unfold filtered
  split
  · rfl
  · split <;> rfl

end JavaDeps
