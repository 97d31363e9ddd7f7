import JavaDeps.Proofs.Analysis.Recorded

/-!
# The deep analysis extends the plain one

After the plain analysis, every phase of the deep analysis only enters findings that add labels to
edges or facts beside the graph.
-/

namespace JavaDeps

/-! ## Graphs with further labels -/

namespace Graph

def firstCall? (g : Graph) : Option (SourcePath × SourcePath × String) :=
  match g.calls.entries with
  | (source, ⟨(target, l) :: _, _⟩) :: _ => l.names.head?.map (fun label => (source, target, label))
  | _ => none

/-- The second graph has the calls of the first one, with labels and edges added behind those that
are there, and agrees with it in everything else. -/
structure Extends (g g' : Graph) : Prop where
  frame : g' = { g with calls := g'.calls }
  labels : ∀ source target, g.names source target <+: g'.names source target
  first : ∀ call, g.firstCall? = some call → g'.firstCall? = some call

namespace Extends

theorem refl (g : Graph) : g.Extends g := ⟨rfl, fun _ _ => List.prefix_rfl, fun _ h => h⟩

theorem trans {g g' g'' : Graph} (h : g.Extends g') (h' : g'.Extends g'') : g.Extends g'' := by
  refine ⟨?_, fun source target => (h.labels source target).trans (h'.labels source target),
    fun call hcall => h'.first call (h.first call hcall)⟩
  rw [h'.frame, h.frame]

/-- The directory stays the same. -/
theorem root_eq {g g' : Graph} (h : g.Extends g') : g'.root = g.root := by
  rw [h.frame]

end Extends

/-- The first call is a label on its edge. -/
theorem mem_names_of_firstCall? {g : Graph} {source target : SourcePath} {label : String}
    (h : g.firstCall? = some (source, target, label)) : label ∈ g.names source target := by
  rcases hrows : g.calls with ⟨_ | ⟨⟨s, ⟨_ | ⟨⟨t, l⟩, cells⟩, _⟩⟩, rows⟩, _⟩ <;>
    simp only [firstCall?, hrows, reduceCtorEq] at h
  rcases Option.map_eq_some_iff.1 h with ⟨first, hfirst, heq⟩
  cases heq
  have hnames : g.names source target = l.names := by
    simp [names, labels, hrows, Table.getD, Table.get?]
  rw [hnames]
  exact List.mem_of_head? hfirst

/-- A label behind those of an edge leaves the first call where it is. -/
theorem firstCall?_setLabels {g : Graph} {call : SourcePath × SourcePath × String}
    (h : g.firstCall? = some call) (source target : SourcePath) (label : String) :
    (g.setLabels source target
      (Labels.ofNames (g.names source target ++ [label]))).firstCall? = some call := by
  rcases hrows : g.calls with ⟨_ | ⟨⟨s, ⟨_ | ⟨⟨t, l⟩, cells⟩, _⟩⟩, rows⟩, _⟩ <;>
    simp only [firstCall?, hrows, reduceCtorEq] at h
  by_cases hs : s = source
  · subst hs
    by_cases ht : t = target
    · subst ht
      have hnames : g.names s t = l.names := by
        simp [names, labels, hrows, Table.getD, Table.get?]
      rw [hnames]
      cases hl : l.names with
      | nil => simp [hl] at h
      | cons first more =>
        rw [hl] at h
        simpa [firstCall?, setLabels, hrows, Table.alter, Table.getD, Table.get?, Table.set,
          Table.setIn] using h
    · simpa [firstCall?, setLabels, hrows, Table.alter, Table.getD, Table.get?, Table.set,
        Table.setIn, ht] using h
  · simpa [firstCall?, setLabels, hrows, Table.alter, Table.set, Table.setIn, hs] using h

/-- A label behind those of an edge extends a graph. -/
theorem Extends.setLabels (g : Graph) (source target : SourcePath) (label : String) :
    g.Extends (g.setLabels source target
      (Labels.ofNames (g.names source target ++ [label]))) := by
  refine ⟨rfl, fun s t => ?_, fun call hcall => firstCall?_setLabels hcall source target label⟩
  rw [names_setLabels]
  split
  · rename_i h
    rcases h with ⟨rfl, rfl⟩
    exact List.prefix_append _ _
  · exact List.prefix_rfl

end Graph

/-- The finding adds labels or facts: it is neither about declared classes nor about imports. -/
def Finding.isDetail : Finding → Bool
  | .declares _ _ _ => false
  | .imports _ _ => false
  | _ => true

theorem Graph.Extends.record (g : Graph) {f : Finding} (h : f.isDetail = true) :
    g.Extends (g.record f) := by
  cases f with
  | declares file name qualified => cases h
  | imports file name => cases h
  | uses source target label => exact Extends.setLabels g source target label
  | usesOnce source target label =>
    by_cases hl : label ∈ g.names source target
    · simpa [Graph.record, hl] using Extends.refl g
    · simpa [Graph.record, hl] using Extends.setLabels g source target label
  | _ => exact Extends.refl g

/-- Findings about details extend a graph. -/
theorem Graph.Extends.recordAll {findings : List Finding} (g : Graph)
    (h : ∀ f ∈ findings, f.isDetail = true) : g.Extends (g.recordAll findings) := by
  induction findings generalizing g with
  | nil => exact Extends.refl g
  | cons f rest ih =>
    have hstep : g.Extends (g.record f) := Extends.record g (h f List.mem_cons_self)
    exact hstep.trans (ih (g.record f) (fun f' hf' => h f' (List.mem_cons_of_mem f hf')))

/-! ## Phases -/

/-- What is found in a single file is a detail. -/
theorem Finding.FoundIn.isDetail {f : Finding} {g : Graph} {file : SourcePath}
    (h : f.FoundIn g file) : f.isDetail = true := by
  cases f with
  | declares _ _ _ => exact h.elim
  | imports _ _ => exact h.elim
  | _ => rfl

/-- A round that only finds details extends the graph. -/
theorem Graph.Extends.round {findings : Project → SourcePath → List Char → List Finding}
    (h : ∀ q file text, ∀ f ∈ findings q file text, f.isDetail = true) (p : Project)
    (sources : List (SourcePath × List Char)) :
    p.graph.Extends (p.round findings sources).graph := by
  refine Project.round_induction (I := fun q => p.graph.Extends q.graph) (fun e _ q hq => ?_)
    (Extends.refl _)
  rw [Project.graph_recordAll]
  exact hq.trans (Extends.recordAll _ (h q e.1 e.2))

/-- Every phase after the plain analysis only finds details. -/
theorem Project.deepened_extends (p : Project) (d : Disk) (files : List SourcePath) :
    (p.graph.analyzed d).Extends (p.deepened files (d.sources p.graph.root)).graph := by
  rw [← graph_rounds, deepened, graph_recordAll]
  -- From the last phase back: links, the closer look, services, implementations and interfaces.
  refine Graph.Extends.trans ?_ (Graph.Extends.recordAll _ (fun f hf => ?_))
  · refine Graph.Extends.trans ?_ (Graph.Extends.round (fun _ _ _ f hf => ?_) _ _)
    · refine Graph.Extends.trans ?_ (Graph.Extends.round (fun _ _ _ f hf => ?_) _ _)
      · refine Graph.Extends.trans (Graph.Extends.round (fun _ _ _ f hf => ?_) _ _)
          (Graph.Extends.round (fun _ _ _ f hf => ?_) _ _)
        · rcases List.mem_map.1 hf with ⟨name, -, rfl⟩
          rfl
        · simp only [clauseFindings, List.mem_flatMap] at hf
          rcases hf with ⟨c, -, interface, -, hf⟩
          rcases mem_implementationFindings hf with rfl | ⟨_, -, -, rfl⟩ <;> rfl
      · rcases mem_serviceFindings hf with ⟨_, _, _, rfl⟩ | ⟨_, -, -, rfl⟩ <;> rfl
    · rcases exists_foundIn hf with ⟨g, hfound⟩
      exact hfound.isDetail
  · rcases mem_crossFindings.1 hf with ⟨_, -, _, -, _, _, -, -, rfl | rfl⟩ <;> rfl

theorem Project.depth_round (findings : Project → SourcePath → List Char → List Finding)
    (p : Project) (sources : List (SourcePath × List Char)) :
    (p.round findings sources).depth = p.depth :=
  round_keeps (fun q => q.depth) p (fun _ _ _ _ _ _ => rfl)

theorem Project.depth_deepened (p : Project) (files : List SourcePath)
    (sources : List (SourcePath × List Char)) : (p.deepened files sources).depth = p.depth := by
  refine (recordAll_keeps (fun q => q.depth) _ (fun _ _ _ => rfl)).trans ?_
  simp only [examined, surveyed, depth_round]

/-! ## Analyses of fresh projects -/

theorem analyze_run_plain {s : Session} (h : s.project.depth = .plain) :
    analyze s = analyzePlain s := by
  simp only [analyze, bind_run, theProject_run, h]

theorem analyze_run_deep {s : Session} (h : s.project.depth ≠ .plain) :
    analyze s = analyzeDeep s := by
  simp only [analyze, bind_run, theProject_run]

section

variable {spelled : String → Prop}
  (hspelled : ∀ text, ∀ name ∈ Java.declaredTypes text,
    spelled name ∧ spelled (qualifiedName text name))

include hspelled

/-- A fresh project is ready for analysis: it is regular, and so are its findings. -/
theorem fresh_ready {t : Session} {depth : Depth} {hasStore : Bool} {root : SourcePath}
    (hproject : t.project = Project.fresh depth hasStore root) :
    t.project.Regular (t.disk.Lists root) spelled ∧
      (∀ file ∈ t.disk.javaFiles t.project.graph.root, t.disk.Lists root file) ∧
      ∀ file ∈ t.disk.javaFiles t.project.graph.root, ∀ text, ∀ f ∈ declarationFindings file text,
        f.Fits (t.disk.Lists root) spelled := by
  rw [hproject]
  refine ⟨Project.fresh_regular _ _ _, fun file hfile => hfile, fun file hfile text f hf => ?_⟩
  rcases List.mem_map.1 hf with ⟨name, hname, rfl⟩
  exact ⟨hfile, hspelled text name hname⟩

/-- What opening and analysing a directory leads to at the plain depth. -/
theorem openProject_analyze_plain (root : String) (s : Session) :
    Leads (do openProject .plain root; analyze) s (fun _ t =>
      t.disk = s.disk ∧ t.project.depth = .plain ∧
      t.project.Regular (s.disk.Lists (SourcePath.ofText root)) spelled ∧
      t.project.graph = (Graph.ofRoot (SourcePath.ofText root)).analyzed s.disk) := by
  refine Leads.bind ((openProject_leads .plain root s).weaken ?_)
  rintro _ t ⟨hdisk, hasStore, hproject⟩
  have hdepth : t.project.depth = .plain := by rw [hproject]; rfl
  rcases fresh_ready hspelled hproject with ⟨hregular, hfiles, hfits⟩
  rcases analyzePlain_arrives hregular hfiles hfits with ⟨harrives, hreg⟩
  rw [Leads, analyze_run_plain hdepth]
  refine harrives.weaken ?_
  rintro _ u ⟨hdisk', hu⟩
  rw [← hu, hdisk] at hreg
  refine ⟨hdisk'.trans hdisk, ?_, hreg, ?_⟩
  · rw [hu, Project.depth_round, Project.depth_round, hdepth]
  · rw [hu, Project.graph_rounds, hproject, hdisk]
    rfl

/-- What opening and analysing a directory leads to at the other depths, in full. -/
theorem openProject_analyze_deepened {depth : Depth} (hdeep : depth ≠ .plain) (root : String)
    (s : Session) :
    Leads (do openProject depth root; analyze) s (fun _ t =>
      t.disk = s.disk ∧ t.project.Regular (s.disk.Lists (SourcePath.ofText root)) spelled ∧
      ∃ hasStore, t.project = (Project.fresh depth hasStore (SourcePath.ofText root)).deepened
        (s.disk.javaFiles (SourcePath.ofText root)) (s.disk.sources (SourcePath.ofText root))) := by
  refine Leads.bind ((openProject_leads depth root s).weaken ?_)
  rintro _ t ⟨hdisk, hasStore, hproject⟩
  have hdepth : t.project.depth = depth := by rw [hproject]; rfl
  rcases fresh_ready hspelled hproject with ⟨hregular, hfiles, hfits⟩
  rw [Leads, analyze_run_deep (hdepth ▸ hdeep)]
  refine (analyzeDeep_leads hregular hfiles hfits).weaken ?_
  rintro _ u ⟨hdisk', hreg, hu⟩
  rw [hdisk] at hreg hu
  rw [hproject] at hu
  exact ⟨hdisk'.trans hdisk, hreg, hasStore, hu⟩

/-- What opening and analysing a directory leads to at the other depths. -/
theorem openProject_analyze_deep {depth : Depth} (hdeep : depth ≠ .plain) (root : String)
    (s : Session) :
    Leads (do openProject depth root; analyze) s (fun _ t =>
      t.disk = s.disk ∧ t.project.depth = depth ∧
      t.project.Regular (s.disk.Lists (SourcePath.ofText root)) spelled ∧
      ((Graph.ofRoot (SourcePath.ofText root)).analyzed s.disk).Extends t.project.graph) := by
  refine (openProject_analyze_deepened hspelled hdeep root s).weaken ?_
  rintro _ t ⟨hdisk, hreg, hasStore, ht⟩
  refine ⟨hdisk, ?_, hreg, ?_⟩
  · rw [ht, Project.depth_deepened]
    rfl
  · rw [ht]
    exact Project.deepened_extends (Project.fresh depth hasStore (SourcePath.ofText root)) s.disk _

end

/-- What opening and analysing a directory leads to at the deeper depths, however classes are
spelled. -/
theorem openProject_analyze_arrives {depth : Depth} (hdeep : depth ≠ .plain) (root : String)
    (s : Session) :
    Leads (do openProject depth root; analyze) s (fun _ t =>
      t.project.Regular (s.disk.Lists (SourcePath.ofText root)) (fun _ => True) ∧
      ∃ hasStore, t.project = (Project.fresh depth hasStore (SourcePath.ofText root)).deepened
        (s.disk.javaFiles (SourcePath.ofText root)) (s.disk.sources (SourcePath.ofText root))) := by
  have hspelled : ∀ text, ∀ name ∈ Java.declaredTypes text, True ∧ True := by simp
  exact (@openProject_analyze_deepened (fun _ => True) hspelled depth hdeep root s).weaken
    (fun _ _ h => h.2)

/-- The plain analysis of a directory succeeds and leaves the graph of all its findings. -/
theorem analyze_plain_run (root : String) (s : Session) :
    ∃ t, (do openProject .plain root; analyze : Action Unit) s = (.ok (), t) ∧
      t.project.Regular (s.disk.Lists (SourcePath.ofText root)) (fun _ => True) ∧
      t.project.graph = (Graph.ofRoot (SourcePath.ofText root)).analyzed s.disk := by
  have hspelled : ∀ text, ∀ name ∈ Java.declaredTypes text, True ∧ True := by simp
  rcases @openProject_analyze_plain (fun _ => True) hspelled root s with
    ⟨_, t, hrun, -, -, hregular, hgraph⟩
  exact ⟨t, hrun, hregular, hgraph⟩

/-- A plain analysis that was run on a fresh project has left the graph of all its findings. -/
theorem graph_of_analyze_plain {root : String} {s t : Session}
    (hrun : (do openProject .plain root; analyze : Action Unit) s = (.ok (), t)) :
    t.project.graph = (Graph.ofRoot (SourcePath.ofText root)).analyzed s.disk := by
  rcases analyze_plain_run root s with ⟨t', hrun', -, hgraph⟩
  have ht : t' = t := (Prod.mk.inj (hrun'.symm.trans hrun)).2
  rwa [ht] at hgraph

/-- The deep analysis of a directory is a conservative extension of the plain one. Both succeed and
agree on classes and imports, and every edge of the deep one carries the labels of the plain one,
with further ones behind them. -/
theorem analyze_deep_extends_plain (root : String) (s : Session) :
    ∃ plain deep,
      (do openProject .plain root; analyze : Action Unit) s = (.ok (), plain) ∧
      (do openProject .deep root; analyze : Action Unit) s = (.ok (), deep) ∧
      deep.project.graph.classes = plain.project.graph.classes ∧
      deep.project.graph.declared = plain.project.graph.declared ∧
      deep.project.graph.imports = plain.project.graph.imports ∧
      ∀ source target, ∃ names more,
        plain.project.graph.labels source target = Labels.ofNames names ∧
        deep.project.graph.labels source target = Labels.ofNames (names ++ more) := by
  -- How classes are spelled plays no part here.
  have hspelled : ∀ text, ∀ name ∈ Java.declaredTypes text, True ∧ True := by simp
  rcases @openProject_analyze_plain (fun _ => True) hspelled root s with
    ⟨_, plain, hplain, -, -, hregular, hgraph⟩
  rcases @openProject_analyze_deep (fun _ => True) hspelled .deep (by decide) root s with
    ⟨_, deep, hdeep, -, -, hregular', hextends⟩
  rw [← hgraph] at hextends
  refine ⟨plain, deep, hplain, hdeep, by rw [hextends.frame], by rw [hextends.frame],
    by rw [hextends.frame], fun source target => ?_⟩
  rcases hextends.labels source target with ⟨more, hmore⟩
  refine ⟨plain.project.graph.names source target, more, ?_, ?_⟩
  · exact hregular.graph.calls_in.labels source target
  · rw [hmore]
    exact hregular'.graph.calls_in.labels source target

end JavaDeps
