import JavaDeps.Proofs.Selection.Filed
import JavaDeps.Proofs.Selection.Lookups

/-!
# Runs of selections and edits

After the analysis of a project a user selects and edits in any order. Some of these operations
fail, and one that fails may have changed the graph before. Whatever a user does, classes stay with
files that declare them, and no edge between files comes up that the analysis did not find.

The file defines:
- `Operation`, a selection or an edit, with `Operation.run`, and `Operation.afterAll`, the session
  after several of them;
- `Restrictable`, `Selectable` and `Stable`, by which something that holds of a graph stays true
  under all that restrictions, selections and operations do to it;
- the step lemma `Operation.maintains`, by which every operation keeps what is stable, and the run
  lemma `Operation.afterAll_keeps`; by `Operation.afterAll_partOf` a graph stays a part of the
  analysed one.
-/

namespace JavaDeps

/-! ## Operations -/

/-- A selection or an edit. The values are those that the user gives, of whatever kind. -/
inductive Operation where
  | select (ids : Value)
  | hideNode (node : Value)
  | showNode (node : Value)
  | deleteNode (node : Value)
  | addNode (node classes color : Value)
  | setColor (node color : Value)
  | resetColor (node : Value)
  | hideEdge (source target : Value)
  | showEdge (source target : Value)
  | deleteEdge (source target : Value)
  | addEdge (source target methods : Value)
  | relabel (source target labels : Value)

namespace Operation

/-- Carries out an operation. What it answers is not looked at. -/
def run : Operation → Action Unit
  | select ids => filterProject ids
  | hideNode node => onGraph (fun g => g.hideNode node)
  | showNode node => onGraph (fun g => g.showNode node)
  | deleteNode node => onGraph (fun g => g.deleteNode node)
  | addNode node classes color => do let _ ← onGraph (fun g => g.addNode node classes color)
  | setColor node color => onGraph (fun g => g.setColor node color)
  | resetColor node => onGraph (fun g => g.resetColor node)
  | hideEdge source target => onGraph (fun g => g.hideEdge source target)
  | showEdge source target => onGraph (fun g => g.showEdge source target)
  | deleteEdge source target => do let _ ← onGraph (fun g => g.deleteEdge source target)
  | addEdge source target methods => do let _ ← onGraph (fun g => g.addEdge source target methods)
  | relabel source target labels => modifyGraph (fun g => (g.relabel source target labels).2)

/-- The session after an operation, whether it succeeds or fails. -/
def after (op : Operation) (s : Session) : Session := (op.run s).2

/-- The session after operations, of which each is carried out even if those before it failed. -/
def afterAll (ops : List Operation) (s : Session) : Session := ops.foldl (fun s op => op.after s) s

end Operation

/-! ## What one operation keeps -/

/-- What holds of a graph stays true when everything is shown and when the graph is restricted. -/
structure Restrictable (I : Graph → Prop) : Prop where
  showAll : ∀ {g}, I g → I g.showAll
  restrict : ∀ {g g' chosen calls}, I g → g.restrict chosen calls = .ok g' → I g'

/-- What holds of a graph stays true under all that a selection does: also when the graph is reduced
to the calls that mention a name. -/
structure Selectable (I : Graph → Prop) : Prop extends Restrictable I where
  narrow : ∀ {g g' names kept}, I g → I g' → Graph.filterLabels names g.calls = .ok kept →
    I { g' with calls := kept }

/-- What holds of a graph stays true when it is edited, restricted or reduced to the calls that
mention a name. -/
structure Stable (I : Graph → Prop) : Prop where
  trims : ∀ {g g'}, I g → g.Trims g' → I g'
  restrict : ∀ {g g' chosen calls}, I g → g.restrict chosen calls = .ok g' → I g'
  narrow : ∀ {g g' names kept}, I g → I g' → Graph.filterLabels names g.calls = .ok kept →
    I { g' with calls := kept }

/-- What all steps keep is kept by selections. -/
theorem Stable.selectable {I : Graph → Prop} (hI : Stable I) : Selectable I where
  showAll hg := hI.trims hg ⟨rfl, rfl, rfl, Sparser.refl _⟩
  restrict hg hr := hI.restrict hg hr
  narrow hg hg' hkept := hI.narrow hg hg' hkept

/-- The selection of classes maintains what restrictions keep. -/
theorem filterGraph_maintains {I : Graph → Prop} (hI : Restrictable I) (ids : Value) :
    Maintains I (filterGraph ids) (fun _ => True) := by
  unfold filterGraph
  split
  · exact Maintains.of_preserves (say_then_preserves basis_apart _ (Preserves.pure ()))
  · refine Maintains.after (Preserves.orFail _) (fun count => ?_)
    refine Maintains.after (say_keepsBasis _) (fun _ => ?_)
    refine Maintains.after (Preserves.orFail _) (fun texts => ?_)
    refine Maintains.after (chosenClasses_keepsBasis _) (fun classes => ?_)
    refine Maintains.after (say_keepsBasis _) (fun _ => ?_)
    refine Maintains.bind Maintains.theGraph (fun g hg => ?_)
    split
    · refine Maintains.after (say_keepsBasis _) (fun _ => ?_)
      exact Maintains.bind (Maintains.modifyGraph (fun _ hg => hI.showAll hg))
        (fun _ _ => Maintains.of_preserves (say_keepsBasis _))
    · refine Maintains.bind (Maintains.orFail (fun g' hg' => hI.restrict hg hg')) (fun g' hg' => ?_)
      exact Maintains.bind (Maintains.modifyGraph (fun _ _ => hg'))
        (fun _ _ => Maintains.of_preserves (say_keepsBasis _))

section

variable {I : Graph → Prop} (hI : Selectable I)
include hI

theorem filterCalls_maintains (names : Value) :
    Maintains I (filterCalls names) (fun _ => True) := by
  unfold filterCalls
  split
  · refine Maintains.after (Preserves.orFail _) (fun texts => ?_)
    refine Maintains.after (say_keepsBasis _) (fun _ => ?_)
    refine Maintains.bind Maintains.theGraph (fun g hg => ?_)
    -- The reduced calls are computed from the graph that was read and written into the one there
    -- is.
    refine Maintains.bind (Maintains.orFail (fun kept hkept => hkept)) (fun kept hkept => ?_)
    refine Maintains.bind (Maintains.modifyGraph (fun g' hg' => hI.narrow hg hg' hkept))
      (fun _ _ => ?_)
    exact Maintains.bind Maintains.theGraph (fun _ _ => Maintains.of_preserves (say_keepsBasis _))
  · exact Maintains.pure trivial

theorem filterPaged_maintains (ids : Value) :
    Maintains I (filterPaged ids) (fun _ => True) := by
  refine filterPaged_rule (P := fun a => Maintains I a (fun _ => True)) (fun {r f} h => ?_)
    Maintains.after (fun texts _ names _ => ?_) (filterGraph_maintains hI.toRestrictable ids)
  · exact Maintains.bind (Maintains.orFail (fun texts htexts => htexts)) h
  · exact Maintains.bind (filterCalls_maintains hI _)
      (fun _ _ => filterGraph_maintains hI.toRestrictable ids)

/-- The selection of a project maintains what selections keep. -/
theorem filterProject_maintains (ids : Value) :
    Maintains I (filterProject ids) (fun _ => True) := by
  have hread : KeepsBasis theProject := fun _ => rfl
  refine Maintains.after hread (fun p => ?_)
  split
  · exact filterPaged_maintains hI ids
  · exact filterGraph_maintains hI.toRestrictable ids

end

section

variable {I : Graph → Prop} (hI : Stable I)
include hI

/-- An edit that only trims the graph maintains what is stable. -/
theorem onGraph_maintains {α : Type} {edit : Graph → Except Fault α × Graph}
    (h : ∀ g : Graph, g.Trims (edit g).2) :
    Maintains I (onGraph edit) (fun _ => True) :=
  Maintains.onGraph (fun g hg => hI.trims hg (h g))

namespace Operation

/-- Whether it succeeds or fails, an operation keeps what is stable. -/
theorem maintains (op : Operation) :
    Maintains I op.run (fun _ => True) := by
  cases op with
  | select ids => exact filterProject_maintains hI.selectable ids
  | hideNode node => exact onGraph_maintains hI (fun g => g.hideNode_trims node)
  | showNode node => exact onGraph_maintains hI (fun g => g.showNode_trims node)
  | deleteNode node => exact onGraph_maintains hI (fun g => g.deleteNode_trims node)
  | addNode node classes color =>
    exact Maintains.bind (onGraph_maintains hI (fun g => g.addNode_trims node classes color))
      (fun _ _ => Maintains.pure trivial)
  | setColor node color => exact onGraph_maintains hI (fun g => g.setColor_trims node color)
  | resetColor node => exact onGraph_maintains hI (fun g => g.resetColor_trims node)
  | hideEdge source target => exact onGraph_maintains hI (fun g => g.hideEdge_trims source target)
  | showEdge source target => exact onGraph_maintains hI (fun g => g.showEdge_trims source target)
  | deleteEdge source target =>
    exact Maintains.bind (onGraph_maintains hI (fun g => g.deleteEdge_trims source target))
      (fun _ _ => Maintains.pure trivial)
  | addEdge source target methods =>
    exact Maintains.bind (onGraph_maintains hI (fun g => g.addEdge_trims source target methods))
      (fun _ _ => Maintains.pure trivial)
  | relabel source target labels =>
    have hedit : ∀ g : Graph, I g → I (g.relabel source target labels).2 :=
      fun g hg => hI.trims hg (g.relabel_trims source target labels)
    exact Maintains.modifyGraph hedit

/-- Operations one after the other keep what is stable. -/
theorem afterAll_keeps (ops : List Operation) {s : Session} (h : I s.project.graph) :
    I (afterAll ops s).project.graph := by
  -- The session is general: a failed operation may have changed it before the next one starts.
  induction ops generalizing s with
  | nil => exact h
  | cons op rest ih => exact ih (op.maintains hI s h).1

end Operation

end

/-! ## What all operations keep -/

/-- Being part of a graph is kept by all steps. -/
theorem Graph.PartOf.stable (whole : Graph) : Stable (fun g => g.PartOf whole) where
  trims hg ht := hg.trims ht
  restrict hg hr := hg.restrict hr
  narrow hg hg' hkept :=
    ⟨hg'.filed.congr rfl rfl, (Graph.sparser_filterLabels hkept).trans hg.calls⟩

/-- Operations one after the other keep the graph a part of the whole. -/
theorem Operation.afterAll_partOf {whole : Graph} (ops : List Operation) {s : Session}
    (h : s.project.graph.PartOf whole) : (afterAll ops s).project.graph.PartOf whole :=
  afterAll_keeps (Graph.PartOf.stable whole) ops h

/-! ## Runs after an analysis -/

/-- Two files with an edge are linked. -/
theorem linked_of_edge? {g : Graph} {source target : SourcePath}
    (h : (g.edge? source target).isSome = true) : Linked g.calls source target := by
  rcases Option.isSome_iff_exists.1 h with ⟨l, hl⟩
  rcases Option.bind_eq_some_iff.1 hl with ⟨row, hrow, htarget⟩
  exact ⟨row, Table.mem_entries_of_get? hrow,
    List.mem_map_of_mem (Table.mem_entries_of_get? htarget)⟩

/-- No row stands twice in a table, so that linked files have an edge. -/
theorem edge?_of_linked {g : Graph} {source target : SourcePath}
    (hl : Linked g.calls source target) :
    (g.edge? source target).isSome = true := by
  rcases hl with ⟨row, hrow, htarget⟩
  rcases List.mem_map.1 htarget with ⟨e, he, rfl⟩
  have hget : row.get? e.1 = some e.2 := Table.get?_of_mem he
  rw [Graph.edge?, Table.get?_of_mem hrow]
  simp [hget]

/-- The analysis of a fresh project succeeds at every depth. Classes are then listed with files that
declare them, and all files lie in the directory. -/
theorem openProject_analyze_starts (depth : Depth) (root : String) (s : Session) :
    Leads (do openProject depth root; analyze) s (fun _ t =>
      t.project.graph.root = SourcePath.ofText root ∧ t.project.graph.Filed ∧
      CallsIn (s.disk.Lists (SourcePath.ofText root)) t.project.graph.calls) := by
  have hspelled : ∀ text, ∀ name ∈ Java.declaredTypes text, True ∧ True := by simp
  have hfiled := (Graph.Filed.ofRoot (SourcePath.ofText root)).analyzed s.disk
  by_cases hplain : depth = .plain
  · subst hplain
    rcases @openProject_analyze_plain (fun _ => True) hspelled root s with
      ⟨_, t, hrun, -, -, hregular, hgraph⟩
    have hcalls := hregular.graph.calls_in
    rw [hgraph] at hcalls
    refine ⟨_, t, hrun, ?_⟩
    dsimp only
    rw [hgraph]
    exact ⟨Graph.root_analyzed _ _, hfiled, hcalls⟩
  · rcases @openProject_analyze_deep (fun _ => True) hspelled depth hplain root s with
      ⟨_, t, hrun, -, -, hregular, hextends⟩
    -- The deeper analysis only adds calls.
    exact ⟨_, t, hrun, hextends.root_eq.trans (Graph.root_analyzed _ _), hfiled.deepened hextends,
      hregular.graph.calls_in⟩

/-- After the analysis of a fresh project and any selections and edits, of which some may fail,
every class is listed with a file that declares it under the part of its name after the last dot,
and all edges between files are edges that there were right after the analysis. -/
theorem classes_filed_after_operations (root : String) (s : Session) :
    ∃ t, (do openProject .paged root; analyze : Action Unit) s = (.ok (), t) ∧
      ∀ ops : List Operation,
        (∀ name file, (Operation.afterAll ops t).project.graph.classes.get? name = some file →
          ∃ names, (Operation.afterAll ops t).project.graph.declared.get? file = some names ∧
            Text.lastPart name '.' ∈ names.toList) ∧
        ∀ source target,
          ((Operation.afterAll ops t).project.graph.edge? source target).isSome = true →
            (t.project.graph.edge? source target).isSome = true := by
  have hspelled : ∀ text, ∀ name ∈ Java.declaredTypes text, True ∧ True := by simp
  rcases @openProject_analyze_deep (fun _ => True) hspelled .paged (by decide) root s with
    ⟨_, t, hrun, -, -, hregular, hextends⟩
  -- Right after the analysis the graph is filed, and it is a part of itself.
  have hfiled : t.project.graph.Filed := ((Graph.Filed.ofRoot _).analyzed s.disk).deepened hextends
  refine ⟨t, hrun, fun ops => ?_⟩
  have hpart : (Operation.afterAll ops t).project.graph.PartOf t.project.graph :=
    Operation.afterAll_partOf ops ⟨hfiled, Sparser.refl _⟩
  refine ⟨fun name file hname => ?_, fun source target hedge => ?_⟩
  · exact hpart.filed.class_declared (name, file) (Table.mem_entries_of_get? hname)
  · have hlinked := hpart.calls source target (linked_of_edge? hedge)
    exact edge?_of_linked hlinked

end JavaDeps
