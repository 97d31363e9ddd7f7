import JavaDeps.Proofs.Analysis.Deep
import JavaDeps.Proofs.Selection.Filter
import JavaDeps.Proofs.Selection.Shown
import JavaDeps.Selection.Pages

/-!
# Selecting twice

A selection reduces the graph in place, so a second one only sees what the first one left.
-/

namespace JavaDeps

/-! ## What is compared -/

namespace Graph

/-- The graphs list the same classes with the same files, and have the same edges with the same
labels. -/
structure SameView (g g' : Graph) : Prop where
  classes : ∀ name, g.classes.get? name = g'.classes.get? name
  edges : ∀ source target, g.edge? source target = g'.edge? source target

/-- A graph still holds what a selection shows of a larger one: the chosen classes with their files,
the classes of the shown files, and the shown edges with their labels. An edge of which no label was
chosen is shown because of the classes of its files, so these have to be there as well. -/
structure Covers (g shown : Graph) (chosen calls : NameSet) : Prop where
  chosen : ∀ name ∈ chosen.toList, g.classes.get? name = shown.classes.get? name
  files : ∀ name file, shown.classes.get? name = some file → g.Knows file
  edges : ∀ e ∈ edgesOf shown.calls, ∃ names, ⟨e.source, e.target, names⟩ ∈ edgesOf g.calls ∧
    e.names.Sublist names
  whole : ∀ e ∈ edgesOf shown.calls, shown.namedBy calls e = [] → g.Knows e.source ∧
    g.Knows e.target

/-! ## Edges -/

section

variable {inside : SourcePath → Prop} {g g' : Graph}

/-- A graph with all edges of another one finds them alike. -/
theorem edge?_ext (h : CallsIn inside g.calls) (h' : CallsIn inside g'.calls)
    (hmem : ∀ e, e ∈ edgesOf g.calls → e ∈ edgesOf g'.calls) {source target : SourcePath}
    {l : Labels} (hl : g.edge? source target = some l) : g'.edge? source target = some l := by
  rcases (h.edge hl).2.2 with ⟨names, -, rfl⟩
  exact h'.mem_edgesOf.1 (hmem ⟨source, target, names⟩ (h.mem_edgesOf.2 hl))

/-- Graphs have the same edges exactly if the lists of their edges have the same members. -/
theorem edge?_eq_iff (h : CallsIn inside g.calls) (h' : CallsIn inside g'.calls) :
    (∀ source target, g.edge? source target = g'.edge? source target) ↔
      ∀ e, e ∈ edgesOf g.calls ↔ e ∈ edgesOf g'.calls := by
  constructor
  · intro heq e
    rw [h.mem_edgesOf, h'.mem_edgesOf, heq]
  · intro hmem source target
    refine Option.ext (fun l => ?_)
    exact ⟨edge?_ext h h' (fun e => (hmem e).1), edge?_ext h' h (fun e => (hmem e).2)⟩

/-- Relabelling the edges of a graph in two ways gives the same edges only if both agree on all of
them. -/
theorem relabelEdges_mem_iff (h : CallsIn inside g.calls) (f f' : Edge → Option (List String)) :
    (∀ e, e ∈ relabelEdges f (edgesOf g.calls) ↔ e ∈ relabelEdges f' (edgesOf g.calls)) ↔
      ∀ e ∈ edgesOf g.calls, f e = f' e := by
  -- The edges are compared by their ends: between two files there is at most one.
  have hstep : ∀ {f f' : Edge → Option (List String)},
      (∀ e, e ∈ relabelEdges f (edgesOf g.calls) → e ∈ relabelEdges f' (edgesOf g.calls)) →
      ∀ e ∈ edgesOf g.calls, ∀ names, f e = some names → f' e = some names := by
    intro f f' hsub e he names hf
    rcases mem_relabelEdges.1
        (hsub ⟨e.source, e.target, names⟩ (mem_relabelEdges.2 ⟨e.names, he, hf⟩)) with
      ⟨names', he', hf'⟩
    rwa [h.edge_unique he' he rfl rfl] at hf'
  constructor
  · intro hmem e he
    refine Option.ext (fun names => ?_)
    exact ⟨hstep (fun e => (hmem e).1) e he names, hstep (fun e => (hmem e).2) e he names⟩
  · intro heq e
    simp only [mem_relabelEdges]
    refine exists_congr (fun names => and_congr_right (fun he => ?_))
    rw [heq _ he]

end

/-! ## One edge -/

/-- Labels that were chosen stay chosen. -/
theorem namedBy_namedBy (g : Graph) (calls : NameSet) (e : Edge) :
    g.namedBy calls { e with names := g.namedBy calls e } = g.namedBy calls e := by
  simp [namedBy, List.filter_filter]

/-- What a selection keeps of an edge: some of its labels, and if none of these is chosen, then the
classes of both files are known. -/
theorem keptNames_spec {g : Graph} {chosen calls : NameSet} {e : Edge} {names : List String}
    (h : g.keptNames chosen calls e = some names) : names.Sublist e.names ∧
      (g.namedBy calls { e with names := names } = [] → g.Knows e.source ∧ g.Knows e.target) := by
  rcases keptNames_eq_some_iff.1 h with ⟨hne, rfl⟩ | ⟨-, hboth, rfl⟩
  · refine ⟨List.filter_sublist, fun hnamed => ?_⟩
    exact absurd ((namedBy_namedBy g calls e).symm.trans hnamed) hne
  · exact ⟨List.Sublist.refl _,
      fun _ => ⟨knows_of_declaresChosen hboth.1, knows_of_declaresChosen hboth.2⟩⟩

section

variable {inside : SourcePath → Prop} {spelled : String → Prop} {g : Graph}
  (h : g.Regular inside spelled) {chosen calls : NameSet} (chosen' calls' : NameSet)

include h

/-- In a restriction, the files it knows declare the same chosen classes. -/
theorem Regular.declaresChosen_restricted {file : SourcePath}
    (hknows : (g.restricted chosen calls).Knows file) :
    Restriction.declaresChosen (g.restricted chosen calls) chosen' file =
      Restriction.declaresChosen g chosen' file := by
  simp only [Restriction.declaresChosen, h.classesOf_restricted hknows]

/-- At one edge, the second selection shows what it would have shown alone exactly if the first one
left these labels, and the classes of the files where they are needed. -/
theorem Regular.edge_covered_iff (e : Edge) :
    (g.keptNames chosen calls e).bind (fun names =>
        (g.restricted chosen calls).keptNames chosen' calls' { e with names := names }) =
      g.keptNames chosen' calls' e ↔
    ∀ names, g.keptNames chosen' calls' e = some names →
      (∃ left, g.keptNames chosen calls e = some left ∧ names.Sublist left) ∧
      (g.namedBy calls' { e with names := names } = [] →
        (g.restricted chosen calls).Knows e.source ∧
          (g.restricted chosen calls).Knows e.target) := by
  constructor
  · intro heq names hnames
    rw [hnames] at heq
    rcases Option.bind_eq_some_iff.1 heq with ⟨left, hleft, hkept⟩
    have hsecond := keptNames_spec hkept
    exact ⟨⟨left, hleft, hsecond.1⟩, hsecond.2⟩
  · intro hcovered
    have hsub : ∀ {left}, g.keptNames chosen calls e = some left →
        (g.namedBy calls' { e with names := left }).Sublist (g.namedBy calls' e) :=
      fun hleft => (keptNames_spec hleft).1.filter _
    by_cases hnamed : g.namedBy calls' e = []
    · by_cases hboth : Restriction.declaresChosen g chosen' e.source = true ∧
          Restriction.declaresChosen g chosen' e.target = true
      · -- The edge is shown with all its labels, for the sake of its files.
        have halone : g.keptNames chosen' calls' e = some e.names :=
          keptNames_eq_some_iff.2 (Or.inr ⟨hnamed, hboth, rfl⟩)
        rcases hcovered e.names halone with ⟨⟨left, hleft, hle⟩, hknows⟩
        have hall : left = e.names := (keptNames_spec hleft).1.antisymm hle
        subst hall
        rcases hknows hnamed with ⟨hsource, htarget⟩
        rw [hleft, halone]
        refine keptNames_eq_some_iff.2 (Or.inr ⟨hnamed, ?_, rfl⟩)
        rwa [h.declaresChosen_restricted _ hsource, h.declaresChosen_restricted _ htarget]
      · -- The edge is not shown.
        have halone : g.keptNames chosen' calls' e = none := by
          simp [keptNames, hnamed, hboth]
        rw [halone, Option.bind_eq_none_iff]
        intro left hleft
        have hnamed' : (g.restricted chosen calls).namedBy calls' { e with names := left } = [] :=
          List.sublist_nil.1 (hnamed ▸ hsub hleft)
        have hboth' : ¬ (
            Restriction.declaresChosen (g.restricted chosen calls) chosen' e.source = true ∧
            Restriction.declaresChosen (g.restricted chosen calls) chosen' e.target = true) := by
          rintro ⟨hsource, htarget⟩
          rw [h.declaresChosen_restricted _ (knows_of_declaresChosen hsource)] at hsource
          rw [h.declaresChosen_restricted _ (knows_of_declaresChosen htarget)] at htarget
          exact hboth ⟨hsource, htarget⟩
        simp only [keptNames, hnamed', ne_eq, not_true, if_false, hboth']
    · -- The edge is shown with the chosen labels.
      have halone : g.keptNames chosen' calls' e = some (g.namedBy calls' e) :=
        keptNames_eq_some_iff.2 (Or.inl ⟨hnamed, rfl⟩)
      rcases hcovered _ halone with ⟨⟨left, hleft, hle⟩, -⟩
      have hsame : g.namedBy calls' { e with names := left } = g.namedBy calls' e := by
        refine (hsub hleft).antisymm ?_
        have hfilter :=
          hle.filter (fun label => calls'.contains (g.callText e.source e.target label))
        rwa [show List.filter _ (g.namedBy calls' e) = g.namedBy calls' e from
          namedBy_namedBy g calls' e] at hfilter
      rw [hleft, halone, ← hsame]
      rw [← hsame] at hnamed
      exact keptNames_eq_some_iff.2 (Or.inl ⟨hnamed, rfl⟩)

/-! ## All edges -/

/-- The edges that are left by both selections, from those of the graph. -/
theorem Regular.edges_iff :
    (∀ source target, ((g.restricted chosen calls).restricted chosen' calls').edge? source target =
        (g.restricted chosen' calls').edge? source target) ↔
      ∀ e ∈ edgesOf g.calls, (g.keptNames chosen calls e).bind (fun names =>
          (g.restricted chosen calls).keptNames chosen' calls' { e with names := names }) =
        g.keptNames chosen' calls' e := by
  have hcalls := restricted_callsIn h.calls_in chosen calls
  rw [edge?_eq_iff (restricted_callsIn hcalls chosen' calls')
    (restricted_callsIn h.calls_in chosen' calls')]
  simp only [edgesOf_restricted, keptEdges, relabelEdges_relabelEdges]
  exact relabelEdges_mem_iff h.calls_in _ _

/-- Two selections keep the edges of the second exactly if the first one covers them. -/
theorem Regular.edges_covered_iff :
    (∀ e ∈ edgesOf g.calls, (g.keptNames chosen calls e).bind (fun names =>
        (g.restricted chosen calls).keptNames chosen' calls' { e with names := names }) =
      g.keptNames chosen' calls' e) ↔
    ∀ e ∈ edgesOf (g.restricted chosen' calls').calls,
      (∃ names, ⟨e.source, e.target, names⟩ ∈ edgesOf (g.restricted chosen calls).calls ∧
        e.names.Sublist names) ∧
      ((g.restricted chosen' calls').namedBy calls' e = [] →
        (g.restricted chosen calls).Knows e.source ∧
          (g.restricted chosen calls).Knows e.target) := by
  simp only [Regular.edge_covered_iff h, edgesOf_restricted, keptEdges]
  constructor
  · intro hall e he
    rcases mem_relabelEdges.1 he with ⟨names, hmem, hkept⟩
    rcases hall _ hmem e.names hkept with ⟨⟨left, hleft, hle⟩, hknows⟩
    exact ⟨⟨left, mem_relabelEdges.2 ⟨names, hmem, hleft⟩, hle⟩, hknows⟩
  · intro hall e he names hkept
    have hshown : (⟨e.source, e.target, names⟩ : Edge) ∈
        relabelEdges (g.keptNames chosen' calls') (edgesOf g.calls) :=
      mem_relabelEdges.2 ⟨e.names, he, hkept⟩
    rcases hall _ hshown with ⟨⟨left, hleft, hle⟩, hknows⟩
    rcases mem_relabelEdges.1 hleft with ⟨names', he', hleft'⟩
    rw [h.calls_in.edge_unique he' he rfl rfl] at hleft'
    exact ⟨⟨left, hleft', hle⟩, hknows⟩

/-! ## Classes -/

omit h in
/-- Two searches have the same outcome if one looks for less and accepts what the other finds. -/
theorem find?_eq_of_first {p q : SourcePath → Bool} {files : List SourcePath}
    (hle : ∀ file, p file = true → q file = true)
    (hfirst : ∀ file, files.find? q = some file → p file = true) :
    files.find? p = files.find? q := by
  induction files with
  | nil => rfl
  | cons file rest ih =>
    by_cases hq : q file = true
    · have hp : p file = true := hfirst file (by simp [hq])
      simp [hp, hq]
    · have hp : ¬ p file = true := fun hp => hq (hle file hp)
      have hrest := ih (fun file' hfind => hfirst file' (by simpa [hq] using hfind))
      simp [hp, hq, hrest]

/-- A chosen class is listed after both selections as after the first one. -/
theorem Regular.get?_chosen {name : String} (hname : chosen'.contains name = true) :
    ((g.restricted chosen calls).restricted chosen' calls').classes.get? name =
      (g.restricted chosen calls).classes.get? name := by
  rw [get?_classes_restricted, if_pos hname]
  cases hget : (g.restricted chosen calls).classes.get? name with
  | some file => rfl
  | none =>
    -- A file that could list the class again is at an end of an edge that the first selection kept.
    rw [Option.none_or, List.find?_eq_none]
    intro file hend hcontains
    have hknows : (g.restricted chosen calls).Knows file := knows_of_contains hcontains
    rw [h.classesOf_restricted hknows] at hcontains
    have hend' : file ∈ Restriction.endsOf (g.keptEdges chosen calls) := by
      rcases List.mem_flatMap.1 hend with ⟨e, he, hfile⟩
      rcases mem_relabelEdges.1 he with ⟨names, he', -⟩
      rw [edgesOf_restricted] at he'
      exact List.mem_flatMap.2 ⟨_, he', by simpa using hfile⟩
    rcases listed_of_end hend' hcontains with ⟨file', hfile'⟩
    rw [hget] at hfile'
    cases hfile'

/-- Two selections keep the classes of the second exactly if the first one covers them. -/
theorem Regular.classes_covered_iff
    (hedges : (g.restricted chosen calls).keptEdges chosen' calls' = g.keptEdges chosen' calls') :
    (∀ name, ((g.restricted chosen calls).restricted chosen' calls').classes.get? name =
        (g.restricted chosen' calls').classes.get? name) ↔
      (∀ name ∈ chosen'.toList, (g.restricted chosen calls).classes.get? name =
        (g.restricted chosen' calls').classes.get? name) ∧
      ∀ name file, (g.restricted chosen' calls').classes.get? name = some file →
        (g.restricted chosen calls).Knows file := by
  constructor
  · intro heq
    constructor
    · intro name hname
      rw [← heq, Regular.get?_chosen h chosen' calls' (SortedSet.contains_iff.2 hname)]
    · intro name file hget
      rw [← heq, get?_classes_restricted, Option.or_eq_some_iff] at hget
      rcases hget with hget | ⟨-, hfind⟩
      · split at hget
        · exact h.restricted_knows_iff.2 ⟨name, hget⟩
        · cases hget
      · have hcontains := List.find?_some hfind
        exact knows_of_contains hcontains
  · rintro ⟨hchosen, hfiles⟩ name
    -- A chosen class stays with its file; any other one is searched for at the same edges.
    by_cases hname : chosen'.contains name = true
    · rw [Regular.get?_chosen h chosen' calls' hname, hchosen name (SortedSet.contains_iff.1 hname)]
    · have hfiles' := hfiles name
      rw [get?_classes_restricted, if_neg hname, Option.none_or] at hfiles' ⊢
      rw [get?_classes_restricted, if_neg hname, Option.none_or, hedges]
      refine find?_eq_of_first (fun file hcontains => ?_) (fun file hfind => ?_)
      · rwa [h.classesOf_restricted (knows_of_contains hcontains)] at hcontains
      · have hcontains := List.find?_some hfind
        rwa [h.classesOf_restricted (hfiles' file hfind)]

/-! ## Both -/

/-- A second restriction gives what it would have given alone exactly if the first one covers it. -/
theorem Regular.restricted_twice_iff :
    ((g.restricted chosen calls).restricted chosen' calls').SameView (g.restricted chosen' calls') ↔
      (g.restricted chosen calls).Covers (g.restricted chosen' calls') chosen' calls' := by
  have hkept : (∀ e ∈ edgesOf g.calls, (g.keptNames chosen calls e).bind (fun names =>
        (g.restricted chosen calls).keptNames chosen' calls' { e with names := names }) =
      g.keptNames chosen' calls' e) →
      (g.restricted chosen calls).keptEdges chosen' calls' = g.keptEdges chosen' calls' := by
    intro hall
    rw [keptEdges, edgesOf_restricted, keptEdges, relabelEdges_relabelEdges, keptEdges,
      relabelEdges, relabelEdges]
    refine List.filterMap_congr (fun e he => ?_)
    rw [hall e he]
  constructor
  · rintro ⟨hclasses, hedges⟩
    have hall := (Regular.edges_iff h chosen' calls').1 hedges
    have hcovered := (Regular.edges_covered_iff h chosen' calls').1 hall
    rcases (Regular.classes_covered_iff h chosen' calls' (hkept hall)).1 hclasses with
      ⟨hchosen, hfiles⟩
    exact ⟨hchosen, hfiles, fun e he => (hcovered e he).1, fun e he => (hcovered e he).2⟩
  · rintro ⟨hchosen, hfiles, hedges, hwhole⟩
    have hall := (Regular.edges_covered_iff h chosen' calls').2
      (fun e he => ⟨hedges e he, hwhole e he⟩)
    refine ⟨(Regular.classes_covered_iff h chosen' calls' (hkept hall)).2 ⟨hchosen, hfiles⟩, ?_⟩
    exact (Regular.edges_iff h chosen' calls').2 hall

end

/-! ## Selections -/

theorem SameView.refl (g : Graph) : g.SameView g := ⟨fun _ => rfl, fun _ _ => rfl⟩

/-- What is hidden plays no part in the comparison. -/
theorem showAll_sameView_iff {g g' : Graph} : g.showAll.SameView g' ↔ g.SameView g' :=
  ⟨fun h => ⟨h.classes, h.edges⟩, fun h => ⟨h.classes, h.edges⟩⟩

/-- Whether all was shown before makes no difference to a selection. -/
theorem showAll_filtered_sameView (g : Graph) (ids : List String) :
    (g.showAll.filtered ids).SameView (g.filtered ids) := by
  by_cases h : g.KeepsWhole ids
  · have h' : g.showAll.KeepsWhole ids := h
    rcases filtered_of_keepsWhole h with hg | hg <;>
      rcases filtered_of_keepsWhole h' with hg' | hg' <;> rw [hg, hg'] <;>
      exact ⟨fun _ => rfl, fun _ _ => rfl⟩
  · have h' : ¬ g.showAll.KeepsWhole ids := h
    rw [filtered_of_not_keepsWhole h, filtered_of_not_keepsWhole h']
    exact SameView.refl _

/-- With fewer classes in the graph, more selections keep the whole of it. -/
theorem KeepsWhole.mono {g g' : Graph} (hsize : g'.classes.size ≤ g.classes.size)
    {ids : List String}
    (h : g.KeepsWhole ids) : g'.KeepsWhole ids := by
  refine h.imp_right (fun hall => ?_)
  simp only [keepsAll, decide_eq_true_eq] at hall ⊢
  omega

theorem Regular.filtered_twice_iff {inside : SourcePath → Prop}
    {spelled : String → Prop} {g : Graph}
    (h : g.Regular inside spelled) (first second : List String) :
    ((g.filtered first).filtered second).SameView (g.filtered second) ↔
      g.KeepsWhole first ∨
      (g.filtered first).KeepsWhole second ∧ (g.filtered first).SameView (g.filtered second) ∨
      ¬ (g.filtered first).KeepsWhole second ∧ (g.filtered first).Covers (g.filtered second)
        (Choice.ofIds second).classes (Choice.ofIds second).calls := by
  by_cases hfirst : g.KeepsWhole first
  · have hsame : ((g.filtered first).filtered second).SameView (g.filtered second) := by
      rcases filtered_of_keepsWhole hfirst with heq | heq
      · rw [heq]
        exact SameView.refl _
      · rw [heq]
        exact showAll_filtered_sameView g second
    exact iff_of_true hsame (Or.inl hfirst)
  · by_cases hsecond : (g.filtered first).KeepsWhole second
    · have htwice : ((g.filtered first).filtered second).SameView (g.filtered second) ↔
          (g.filtered first).SameView (g.filtered second) := by
        rcases filtered_of_keepsWhole hsecond with heq | heq
        · rw [heq]
        · rw [heq, showAll_sameView_iff]
      simp [hfirst, hsecond, htwice]
    · have heq := filtered_of_not_keepsWhole hfirst
      have hsize : (g.filtered first).classes.size ≤ g.classes.size := by
        rw [heq]
        exact h.restricted_size
      have halone : ¬ g.KeepsWhole second := fun hwhole => hsecond (hwhole.mono hsize)
      rw [filtered_of_not_keepsWhole hsecond, filtered_of_not_keepsWhole halone]
      simp only [hfirst, hsecond, false_and, not_false_eq_true, true_and, false_or]
      rw [heq]
      exact h.restricted_twice_iff _ _

end Graph

/-- The run of a selection in a project without page functions. -/
theorem filterProject_leads {inside : SourcePath → Prop} {s : Session} {ids : List String}
    (hdepth : s.project.depth ≠ .paged) (hids : NoPages ids)
    (hcalls : CallsIn inside s.project.graph.calls)
    (hbelow : ∀ file, inside file → s.project.graph.Below file) :
    ∃ t, filterProject (Value.ofNames ids) s = (.ok (), t) ∧
      t.project = { s.project with graph := s.project.graph.filtered ids } := by
  have hrun : filterProject (Value.ofNames ids) s = filterGraph (Value.ofNames ids) s := by
    simp only [filterProject, bind_run, theProject_run]
  rcases filterGraph_leads hids hcalls hbelow with ⟨_, t, hfilter, -, hproject⟩
  exact ⟨t, hrun.trans hfilter, hproject⟩

/-- The runs of two selections after an analysis, and of the second one alone. -/
theorem selections_lead (root : String) (s : Session) :
    ∃ t, (do openProject .plain root; analyze : Action Unit) s = (.ok (), t) ∧
      t.project.graph.Regular (s.disk.Lists (SourcePath.ofText root)) (fun _ => True) ∧
      ∀ first second : List String, NoPages first → NoPages second →
        ∃ one alone both,
          (filterProject (Value.ofNames first) t = (.ok (), one) ∧
          filterProject (Value.ofNames second) t = (.ok (), alone) ∧
          filterProject (Value.ofNames second) one = (.ok (), both)) ∧
          one.project.graph = t.project.graph.filtered first ∧
          alone.project.graph = t.project.graph.filtered second ∧
          both.project.graph = one.project.graph.filtered second := by
  have hspelled : ∀ text, ∀ name ∈ Java.declaredTypes text, True ∧ True := by simp
  rcases @openProject_analyze_plain (fun _ => True) hspelled root s with
    ⟨_, t, hrun, -, hdepth, hregular, hgraph⟩
  refine ⟨t, hrun, hregular.graph, fun first second hfirst hsecond => ?_⟩
  have hcalls := hregular.graph.calls_in
  have hroot : t.project.graph.root = SourcePath.ofText root := by
    rw [hgraph, Graph.root_analyzed]
    rfl
  have hpaged : t.project.depth ≠ .paged := by
    rw [hdepth]
    decide
  rcases filterProject_leads hpaged hfirst hcalls (fun _ hfile => hfile.below hroot) with
    ⟨one, hone, hproject⟩
  rcases filterProject_leads hpaged hsecond hcalls (fun _ hfile => hfile.below hroot) with
    ⟨alone, halone, hproject'⟩
  -- What the first selection leaves can be selected from again.
  have hcalls' : CallsIn (s.disk.Lists (SourcePath.ofText root)) one.project.graph.calls := by
    rw [hproject]
    exact Graph.filtered_callsIn hcalls first
  have hroot' : one.project.graph.root = SourcePath.ofText root := by
    rw [hproject]
    exact (Graph.root_filtered _ first).trans hroot
  rcases filterProject_leads (s := one) (by rw [hproject]; exact hpaged) hsecond hcalls'
    (fun _ hfile => hfile.below hroot') with ⟨both, hboth, hproject''⟩
  exact ⟨one, alone, both, ⟨hone, halone, hboth⟩, by rw [hproject], by rw [hproject'],
    by rw [hproject'']⟩

/-- A second selection shows what it would have shown alone exactly in these cases: the first one
kept the whole graph; or the second one keeps the whole of what the first one left, and that is what
it shows alone; or what it shows alone is still there after the first one. -/
theorem second_selection_iff (root : String) (s : Session) :
    ∃ t, (do openProject .plain root; analyze : Action Unit) s = (.ok (), t) ∧
      ∀ first second : List String, NoPages first → NoPages second →
        ∃ one alone both,
          (filterProject (Value.ofNames first) t = (.ok (), one) ∧
          filterProject (Value.ofNames second) t = (.ok (), alone) ∧
          filterProject (Value.ofNames second) one = (.ok (), both)) ∧
          (both.project.graph.SameView alone.project.graph ↔
            t.project.graph.KeepsWhole first ∨
            one.project.graph.KeepsWhole second ∧
              one.project.graph.SameView alone.project.graph ∨
            ¬ one.project.graph.KeepsWhole second ∧
              one.project.graph.Covers alone.project.graph
                (Choice.ofIds second).classes (Choice.ofIds second).calls) := by
  rcases selections_lead root s with ⟨t, hrun, hregular, hselect⟩
  refine ⟨t, hrun, fun first second hfirst hsecond => ?_⟩
  rcases hselect first second hfirst hsecond with ⟨one, alone, both, hruns, hone, halone, hboth⟩
  refine ⟨one, alone, both, hruns, ?_⟩
  rw [hboth, halone, hone]
  exact hregular.filtered_twice_iff first second

def pairFiles : Disk :=
  ((default : Disk).put (SourcePath.ofText "A.java") (.text "class A \x7b \x7d")).put
    (SourcePath.ofText "B.java") (.text "class B \x7b \x7d")

theorem sources_pairFiles : pairFiles.sources (SourcePath.ofText ".") =
    [(⟨"", ["A.java"]⟩, "class A \x7b \x7d".toList),
      (⟨"", ["B.java"]⟩, "class B \x7b \x7d".toList)] := by decide +kernel

def pairGraph : Graph :=
  { root := SourcePath.ofText "."
    classes := .mk [("A", ⟨"", ["A.java"]⟩), ("B", ⟨"", ["B.java"]⟩)]
    declared := .mk [(⟨"", ["A.java"]⟩, .ofList ["A"]), (⟨"", ["B.java"]⟩, .ofList ["B"])] }

theorem analyzed_pairFiles :
    (Graph.ofRoot (SourcePath.ofText ".")).analyzed pairFiles = pairGraph := by
  have hdeclared : (Graph.ofRoot (SourcePath.ofText ".")).recordAll
      ((Graph.ofRoot (SourcePath.ofText ".")).foundDeclarations pairFiles) = pairGraph := by
    show (Graph.ofRoot (SourcePath.ofText ".")).recordAll
      ((pairFiles.sources (SourcePath.ofText ".")).flatMap _) = _
    rw [sources_pairFiles]
    rfl
  have hcalls : pairGraph.foundCalls pairFiles = [] := by
    show (pairFiles.sources (SourcePath.ofText ".")).flatMap _ = _
    rw [sources_pairFiles]
    rfl
  rw [Graph.analyzed, hdeclared, hcalls, Graph.recordAll_nil]

/-- Of a graph without calls only the chosen classes are left. -/
theorem get?_classes_pairGraph (chosen calls : NameSet) (key : String) :
    (pairGraph.restricted chosen calls).classes.get? key =
      if chosen.contains key then pairGraph.classes.get? key else none := by
  have hedges : pairGraph.keptEdges chosen calls = [] := rfl
  rw [Graph.get?_classes_restricted, hedges]
  simp [Restriction.endsOf]

/-- After the class `A` was selected, the selection of the class `B` does not show it. -/
theorem second_selection_lost :
    ∃ t one alone both,
      ((do openProject .plain "."; analyze : Action Unit) (Session.ofDisk pairFiles) = (.ok (), t) ∧
      filterProject (Value.ofNames ["class_A"]) t = (.ok (), one) ∧
      filterProject (Value.ofNames ["class_B"]) t = (.ok (), alone) ∧
      filterProject (Value.ofNames ["class_B"]) one = (.ok (), both)) ∧
      ¬ both.project.graph.SameView alone.project.graph := by
  rcases selections_lead "." (Session.ofDisk pairFiles) with ⟨t, hrun, hregular, hselect⟩
  rcases hselect ["class_A"] ["class_B"] (by decide) (by decide) with
    ⟨one, alone, both, hruns, hone, halone, hboth⟩
  have hgraph : t.project.graph = pairGraph :=
    (graph_of_analyze_plain hrun).trans analyzed_pairFiles
  have hiff := hregular.filtered_twice_iff ["class_A"] ["class_B"]
  rw [← hone, ← hboth, ← halone] at hiff
  rw [hgraph] at hone halone hiff
  have hwhole : ∀ id, (Choice.ofIds [id]).classes.size = 1 → ¬ pairGraph.KeepsWhole [id] := by
    rintro id hsize (hnil | hall)
    · cases hnil
    · rw [hsize] at hall
      exact absurd hall (by decide)
  have hA : (Choice.ofIds ["class_A"]).classes = .mk ["A"] := rfl
  have hB : (Choice.ofIds ["class_B"]).classes = .mk ["B"] := rfl
  rw [Graph.filtered_of_not_keepsWhole (hwhole "class_A" (by rw [hA]; rfl)), hA] at hone
  rw [Graph.filtered_of_not_keepsWhole (hwhole "class_B" (by rw [hB]; rfl)), hB] at halone
  refine ⟨t, one, alone, both, ⟨hrun, hruns⟩, fun hsame => ?_⟩
  rcases hiff.1 hsame with h | ⟨-, h⟩ | ⟨-, h⟩
  · exact hwhole "class_A" (by rw [hA]; rfl) h
  · -- The first selection shows the class `A`, the second one does not.
    have hclass := h.classes "A"
    rw [hone, halone, get?_classes_pairGraph, get?_classes_pairGraph] at hclass
    exact absurd hclass (by decide)
  · -- The class `B` is not there any more.
    have hclass := h.chosen "B" (by rw [hB]; decide)
    rw [hone, halone, get?_classes_pairGraph, get?_classes_pairGraph] at hclass
    exact absurd hclass (by decide)

end JavaDeps
