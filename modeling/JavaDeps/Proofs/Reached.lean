import JavaDeps.Proofs.Analysis.Upheld
import JavaDeps.Proofs.Edits.Labels

/-!
# Sessions that can be reached

A project is opened and analysed. Selections, edits and further analyses follow in any order, and
some of them fail. All classes and edges are those of files in the directory nevertheless, and if
all labels are given as texts, there are no others.
-/

namespace JavaDeps

/-! ## Graphs of a directory -/

/-- The graph is that of a directory: the files of all classes and edges lie in it. -/
structure Graph.Inside (root : SourcePath) (g : Graph) : Prop where
  root_eq : g.root = root
  classes_in : g.ClassesIn root.Under
  calls_in : ∀ {source target}, Linked g.calls source target → root.Under source ∧ root.Under target

namespace Graph

variable {root : SourcePath}

theorem Inside.ofRoot (root : SourcePath) : (Graph.ofRoot root).Inside root where
  root_eq := rfl
  classes_in e he := by cases he
  calls_in h := by
    rcases h with ⟨row, hrow, -⟩
    cases hrow

/-- Lying inside a directory is stable. -/
theorem Inside.stable (root : SourcePath) : Stable (Inside root) where
  trims hg ht := by
    refine ⟨ht.root.trans hg.root_eq, ?_, fun hl => hg.calls_in (ht.calls _ _ hl)⟩
    unfold ClassesIn
    rw [ht.classes]
    exact hg.classes_in
  restrict {g _ _ _} hg hr := by
    rcases bind_eq_ok hr with ⟨r, hkept, hr⟩
    cases hr
    have hcalls : Sparser r.calls g.calls := Restriction.sparser_ofGraph hkept
    -- Classes that are kept are those of files with classes or edges, which lie in the directory.
    have hclasses : ∀ e ∈ r.classes.entries, root.Under e.2 := by
      refine Restriction.classes_ofGraph (P := fun t => ∀ e ∈ t.entries, root.Under e.2)
        (by simp) (fun hfile ht name e he => ?_) hg.classes_in hg.calls_in hkept
      rcases Table.mem_set he with rfl | he
      · exact hfile
      · exact ht e he
    exact ⟨hg.root_eq, hclasses, fun hl => hg.calls_in (hcalls _ _ hl)⟩
  narrow hg hg' hkept :=
    ⟨hg'.root_eq, hg'.classes_in, fun hl => hg.calls_in (sparser_filterLabels hkept _ _ hl)⟩

/-! ## Entering calls -/

/-- A call between two files is entered. The directory, the classes and the added nodes stay as they
are, and no other files are linked. -/
structure Gains (source target : SourcePath) (g g' : Graph) : Prop where
  root : g'.root = g.root
  classes : g'.classes = g.classes
  customNodes : g'.customNodes = g.customNodes
  linked : ∀ {s t}, Linked g'.calls s t → (s = source ∧ t = target) ∨ Linked g.calls s t

/-- A call that is added links its files, and nothing else. -/
theorem addCall_gains {g g' : Graph} {source target : SourcePath} {label : String}
    (h : g.addCall source target label = .ok g') : Gains source target g g' := by
  simp only [addCall] at h
  split at h
  · cases h
    unfold withValue
    dsimp only
    split
    · -- Tied labels are written without touching the ends of any edge.
      exact ⟨rfl, rfl, rfl, fun hl => linked_of_alter (Sparser.mapValues _ _ _ hl)⟩
    · exact ⟨rfl, rfl, rfl, linked_of_alter⟩
  · cases h

theorem addCallOnce_gains {g g' : Graph} {source target : SourcePath} {label : String}
    (h : g.addCallOnce source target label = .ok g') : Gains source target g g' := by
  unfold addCallOnce at h
  split at h
  · cases h
  · cases h
    exact ⟨rfl, rfl, rfl, Or.inr⟩
  · exact addCall_gains h

/-- A call between files of the directory keeps the graph inside it. -/
theorem Inside.gains {g g' : Graph} {source target : SourcePath} (h : g.Inside root)
    (hgains : Gains source target g g') (hsource : root.Under source)
    (htarget : root.Under target) :
    g'.Inside root := by
  refine ⟨hgains.root.trans h.root_eq, ?_, fun hl => ?_⟩
  · unfold ClassesIn
    rw [hgains.classes]
    exact h.classes_in
  · rcases hgains.linked hl with ⟨rfl, rfl⟩ | hold
    · exact ⟨hsource, htarget⟩
    · exact h.calls_in hold

/-- A class of a file of the directory keeps the graph inside it. -/
theorem Inside.declares {g : Graph} {file : SourcePath} (h : g.Inside root)
    (hfile : root.Under file) (name qualified : String) :
    ({ g with classes := (g.classes.set name file).set qualified file } : Graph).Inside root := by
  refine ⟨h.root_eq, fun e he => ?_, h.calls_in⟩
  rcases Table.mem_set he with rfl | he
  · exact hfile
  · rcases Table.mem_set he with rfl | he
    · exact hfile
    · exact h.classes_in e he

end Graph

/-! ## Projects -/

namespace Project

variable {root : SourcePath} {p : Project}

/-- The graph and the interfaces are those of a directory, and all labels are texts. -/
structure Listable (root : SourcePath) (p : Project) : Prop where
  inside : p.graph.Inside root
  interfaces : ∀ e ∈ p.facts.interfaces.entries, root.Under e.2
  labels : p.graph.LabelsCarry Value.Textual

/-- A new project is listable. -/
theorem Listable.fresh (depth : Depth) (hasStore : Bool) (root : SourcePath) :
    (Project.fresh depth hasStore root).Listable root where
  inside := Graph.Inside.ofRoot root
  interfaces e he := by cases he
  labels := ⟨RowsCarry.empty, RowsCarry.empty⟩

/-- Entering a call between files of the directory. -/
theorem Listable.withGraph {source target : SourcePath} {r : Except Fault Graph}
    (h : p.Listable root) (hsource : root.Under source) (htarget : root.Under target)
    (hgains : ∀ g, r = .ok g → Graph.Gains source target p.graph g ∧ g.LabelsCarry Value.Textual) :
    (p.withGraph r).2.Listable root := by
  cases r with
  | error e => exact h
  | ok g =>
    rcases hgains g rfl with ⟨hgains, hlabels⟩
    exact ⟨h.inside.gains hgains hsource htarget, h.interfaces, hlabels⟩

/-- A finding about files of the directory keeps the project listable. -/
theorem Listable.enter {f : Finding} (h : p.Listable root) (hf : f.Local root) :
    (p.enter f).2.Listable root := by
  cases f with
  | declares file name qualified =>
    have hinside := h.inside.declares hf.1 name qualified
    unfold Project.enter declare
    dsimp only
    -- The class is listed even if the file is not taken in.
    split
    · exact ⟨hinside, h.interfaces, ⟨h.labels.calls, h.labels.custom⟩⟩
    · exact ⟨⟨hinside.root_eq, hinside.classes_in, hinside.calls_in⟩,
        h.interfaces, ⟨h.labels.calls, h.labels.custom⟩⟩
  | imports file name =>
    exact ⟨⟨h.inside.root_eq, h.inside.classes_in, h.inside.calls_in⟩,
      h.interfaces, ⟨h.labels.calls, h.labels.custom⟩⟩
  | uses source target label =>
    exact h.withGraph hf.1 hf.2
      (fun g hg => ⟨Graph.addCall_gains hg, h.labels.addCall ⟨label, rfl⟩ hg⟩)
  | usesOnce source target label =>
    exact h.withGraph hf.1 hf.2
      (fun g hg => ⟨Graph.addCallOnce_gains hg, h.labels.addCallOnce ⟨label, rfl⟩ hg⟩)
  | declaresInterface file name =>
    refine ⟨h.inside, fun e he => ?_, h.labels⟩
    rcases Table.mem_set he with rfl | he
    · exact hf
    · exact h.interfaces e he
  | _ => exact ⟨h.inside, h.interfaces, h.labels⟩

/-- The analysis keeps a project listable. -/
theorem Listable.absorbs (root : SourcePath) : Absorbs root (Listable root) where
  root_eq hp := hp.inside.root_eq
  classes hp := hp.inside.classes_in
  interfaces hp := hp.interfaces
  enter hp hf := hp.enter hf

end Project

/-! ## Operations -/

/-- The operation leaves the files of the interfaces as they were. -/
abbrev KeepsInterfaces {α : Type} (a : Action α) : Prop :=
  Preserves (fun s => s.project.facts.interfaces) a

theorem modifyGraph_keepsInterfaces (f : Graph → Graph) : KeepsInterfaces (modifyGraph f) :=
  fun _ => rfl

theorem filterGraph_keepsInterfaces (ids : Value) : KeepsInterfaces (filterGraph ids) :=
  filterGraph_preserves interfaces_apart modifyGraph_keepsInterfaces ids

theorem filterCalls_keepsInterfaces (names : Value) : KeepsInterfaces (filterCalls names) :=
  filterCalls_preserves interfaces_apart modifyGraph_keepsInterfaces names

theorem filterProject_keepsInterfaces (ids : Value) : KeepsInterfaces (filterProject ids) := by
  refine Preserves.theProject_bind (fun p => ?_)
  split
  · refine filterPaged_rule (P := KeepsInterfaces) (fun {r f} hf => ?_)
      (fun ha hf => Preserves.bind ha.interfaces hf) (fun _ _ _ _ => ?_)
      (filterGraph_keepsInterfaces ids)
    · cases r with
      | ok texts => exact hf texts rfl
      | error e => exact Preserves.throw e
    · exact Preserves.bind (filterCalls_keepsInterfaces _)
        (fun _ => filterGraph_keepsInterfaces ids)
  · exact filterGraph_keepsInterfaces ids

theorem onGraph_keepsInterfaces {α : Type} (edit : Graph → Except Fault α × Graph) :
    KeepsInterfaces (onGraph edit) := by
  intro s
  unfold onGraph
  rcases edit s.project.graph with ⟨r, g⟩
  rfl

namespace Operation

/-- No operation changes the interfaces. -/
theorem keepsInterfaces (op : Operation) : KeepsInterfaces op.run := by
  have hdiscard : ∀ edit : Graph → Except Fault Bool × Graph,
      KeepsInterfaces (do let _ ← onGraph edit : Action Unit) :=
    fun edit => Preserves.bind (onGraph_keepsInterfaces edit) (fun _ => Preserves.pure ())
  cases op with
  | select ids => exact filterProject_keepsInterfaces ids
  | addNode node classes color => exact hdiscard _
  | deleteEdge source target => exact hdiscard _
  | addEdge source target methods => exact hdiscard _
  | relabel source target labels => exact fun _ => rfl
  | _ => exact onGraph_keepsInterfaces _

/-- Whether it succeeds or fails, an operation that gives texts as labels leaves a listable project.
-/
theorem listable {root : SourcePath} {op : Operation} (hop : op.Gives Value.Textual) {s : Session}
    (h : s.project.Listable root) : (op.after s).project.Listable root where
  inside := (op.maintains (Graph.Inside.stable root) s h.inside).1
  interfaces := by
    have hsame : (op.after s).project.facts.interfaces = s.project.facts.interfaces :=
      op.keepsInterfaces s
    rw [hsame]
    exact h.interfaces
  labels := (labelsCarry (fun text => ⟨text, rfl⟩) hop s h.labels).1

end Operation

/-! ## Sessions -/

namespace Session

/-- The sessions that are reached from an opened project by analyses, and by selections and edits
that give texts as labels, each of which may fail. Everything but the project may change in between.
-/
inductive Reached : Session → Prop where
  | opened (depth : Depth) (root : String) (s : Session) : Reached (openProject depth root s).2
  | analyzed {s : Session} (h : Reached s) : Reached (analyze s).2
  | operated {s : Session} {op : Operation} (h : Reached s) (hop : op.Gives Value.Textual) :
      Reached (op.after s)
  | elsewhere {s t : Session} (h : Reached s) (hproject : t.project = s.project) : Reached t

/-- The projects of sessions that are reached are listable. -/
theorem Reached.listable {s : Session} (h : s.Reached) : ∃ root, s.project.Listable root := by
  induction h with
  | opened depth root s =>
    rcases openProject_leads depth root s with ⟨_, t, hrun, -, hasStore, hproject⟩
    rw [hrun]
    refine ⟨SourcePath.ofText root, ?_⟩
    dsimp only
    rw [hproject]
    exact Project.Listable.fresh depth hasStore _
  | analyzed h ih =>
    rcases ih with ⟨root, hlistable⟩
    exact ⟨root, analyze_upholds (Project.Listable.absorbs root) _ hlistable⟩
  | operated h hop ih => exact ih.imp (fun _ hlistable => Operation.listable hop hlistable)
  | elsewhere h hproject ih =>
    rw [hproject]
    exact ih

end Session

end JavaDeps
