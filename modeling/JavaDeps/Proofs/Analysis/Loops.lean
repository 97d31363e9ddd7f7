import JavaDeps.Proofs.Analysis.Names

/-!
# Files that depend on themselves

Every phase of the deep analysis but the last one enters edges between different files only. The
last one links an interface and a class that implements it even if one file declares both.
-/

namespace JavaDeps

/-! ## Graphs without loops -/

def Graph.NoLoops (g : Graph) : Prop := ∀ file, g.names file file = []

def Finding.Straight : Finding → Prop
  | .uses source target _ => source ≠ target
  | .usesOnce source target _ => source ≠ target
  | _ => True

/-- Details of a file are never about an edge to itself. -/
theorem Finding.DetailOf.straight {file : SourcePath} {f : Finding} (h : f.DetailOf file) :
    f.Straight := by
  cases f with
  | uses source target label => exact fun heq => h.2 (heq ▸ h.1)
  | usesOnce source target label => exact fun heq => h.2 (heq ▸ h.1)
  | _ => trivial

namespace Graph.NoLoops

variable {g : Graph}

theorem record (h : g.NoLoops) {f : Finding} (hf : f.Straight) : (g.record f).NoLoops := by
  intro file
  rw [Graph.names_record, h file]
  cases f with
  | uses source target label =>
    have hne : ¬ (source = file ∧ target = file) := fun h => hf (h.1.trans h.2.symm)
    simp [Finding.labelsFor, hne]
  | usesOnce source target label =>
    have hne : ¬ (source = file ∧ target = file) := fun h => hf (h.1.trans h.2.symm)
    simp [Finding.labelsFor, hne]
  | _ => rfl

/-- Findings without loops leave a graph without them. -/
theorem recordAll {findings : List Finding} (h : g.NoLoops) (hfs : ∀ f ∈ findings, f.Straight) :
    (g.recordAll findings).NoLoops := by
  induction findings generalizing g with
  | nil => exact h
  | cons f rest ih =>
    exact ih (h.record (hfs f List.mem_cons_self))
      (fun f' hf' => hfs f' (List.mem_cons_of_mem f hf'))

/-- A round of findings without loops leaves a graph without them. -/
theorem round {p : Project} (h : p.graph.NoLoops)
    {findings : Project → SourcePath → List Char → List Finding}
    (hfs : ∀ q file text, ∀ f ∈ findings q file text, f.Straight)
    (sources : List (SourcePath × List Char)) : (p.round findings sources).graph.NoLoops := by
  refine Project.round_induction (I := fun q => q.graph.NoLoops) (fun e _ q hq => ?_) h
  rw [Project.graph_recordAll]
  exact hq.recordAll (hfs q e.1 e.2)

/-- Before the last phase no file has an edge to itself: where a phase looks up the file of a class,
it passes over the file at hand, and services and their implementations differ by their names. -/
theorem examined {p : Project} (h : p.graph.NoLoops) (files : List SourcePath)
    (sources : List (SourcePath × List Char)) : (p.examined files sources).graph.NoLoops := by
  -- Declarations, calls, interfaces, implementations, services and the closer look.
  refine round (round (round (round (round (round h ?_ _) ?_ _) ?_ _) ?_ _) ?_ _) ?_ _
  · intro _ file text f hf
    rcases List.mem_map.1 hf with ⟨name, -, rfl⟩
    trivial
  · exact fun _ _ _ _ hf => (callFindings_detailOf hf).straight
  · intro _ file text f hf
    rcases List.mem_map.1 hf with ⟨name, -, rfl⟩
    trivial
  · intro _ _ _ f hf
    rcases mem_clauseFindings hf with ⟨_, _, rfl⟩ | hdetail
    · trivial
    · exact hdetail.straight
  · intro _ _ _ f hf
    rcases serviceFindings_detailOf hf with ⟨_, _, _, rfl⟩ | hdetail
    · trivial
    · exact hdetail.straight
  · exact fun _ _ _ _ hf => (detailFindings_detailOf hf).straight

end Graph.NoLoops

/-! ## Loops of the last phase -/

section

variable {p : Project} (files : List SourcePath) (sources : List (SourcePath × List Char))

/-- The labels from a file to itself are those of the links between an interface and a class that it
declares both. -/
theorem mem_names_loop_deepened (hloops : p.graph.NoLoops) {file : SourcePath} {label : String} :
    label ∈ (p.deepened files sources).graph.names file file ↔
      ∃ interface className,
        (p.deepened files sources).facts.interfaces.get? interface = some file ∧
        className ∈ ((p.deepened files sources).facts.implementations.getD interface
          SortedSet.empty).toList ∧
        (p.deepened files sources).graph.classes.get? className = some file ∧
        (label = "implemented-by: " ++ className ∨ label = "implements: " ++ interface) := by
  have hbefore : label ∉ (p.examined files sources).graph.names file file := by
    rw [hloops.examined files sources file]
    exact List.not_mem_nil
  rw [mem_names_deepened files sources hbefore]
  constructor
  · rintro ⟨interface, className, _, _, hi, himpl, hclass, ⟨rfl, rfl, hlabel⟩ | ⟨rfl, rfl, hlabel⟩⟩
    · exact ⟨interface, className, hi, himpl, hclass, Or.inl hlabel⟩
    · exact ⟨interface, className, hi, himpl, hclass, Or.inr hlabel⟩
  · rintro ⟨interface, className, hi, himpl, hclass, hlabel⟩
    refine ⟨interface, className, file, file, hi, himpl, hclass, ?_⟩
    rcases hlabel with hlabel | hlabel
    · exact Or.inl ⟨rfl, rfl, hlabel⟩
    · exact Or.inr ⟨rfl, rfl, hlabel⟩

end

/-- An edge of an analysed graph carries at least one label. -/
theorem CallsIn.edge_isSome_iff {inside : SourcePath → Prop} {g : Graph}
    (h : CallsIn inside g.calls) {source target : SourcePath} :
    (g.edge? source target).isSome = true ↔ ∃ label, label ∈ g.names source target := by
  rw [Graph.names, Graph.labels_eq_edge?]
  cases hl : g.edge? source target with
  | none => simp [Labels.none, Labels.names]
  | some l =>
    rcases (h.edge hl).2.2 with ⟨names, hne, rfl⟩
    simpa using List.exists_mem_of_ne_nil names hne

/-- After the deep analysis of a directory a file has an edge to itself exactly if it is listed both
with an interface and with a class that implements this interface. Such an edge carries the labels
of these links and no others. -/
theorem deep_loop_iff (root : String) (s : Session) :
    ∃ t, (do openProject .deep root; analyze : Action Unit) s = (.ok (), t) ∧
      ∀ file,
        ((t.project.graph.edge? file file).isSome ↔ ∃ interface className,
          t.project.facts.interfaces.get? interface = some file ∧
          className ∈ (t.project.facts.implementations.getD interface SortedSet.empty).toList ∧
          t.project.graph.classes.get? className = some file) ∧
        ∀ label, label ∈ t.project.graph.names file file ↔ ∃ interface className,
          t.project.facts.interfaces.get? interface = some file ∧
          className ∈ (t.project.facts.implementations.getD interface SortedSet.empty).toList ∧
          t.project.graph.classes.get? className = some file ∧
          (label = "implemented-by: " ++ className ∨ label = "implements: " ++ interface) := by
  rcases @openProject_analyze_arrives .deep (by decide) root s with
    ⟨_, t, hrun, hregular, hasStore, hproject⟩
  have hlabels := fun file label =>
    @mem_names_loop_deepened (Project.fresh .deep hasStore (SourcePath.ofText root))
      (s.disk.javaFiles (SourcePath.ofText root)) (s.disk.sources (SourcePath.ofText root))
      (fun _ => rfl) file label
  rw [← hproject] at hlabels
  refine ⟨t, hrun, fun file => ⟨?_, hlabels file⟩⟩
  rw [hregular.graph.calls_in.edge_isSome_iff]
  simp only [hlabels]
  constructor
  · rintro ⟨_, interface, className, hi, himpl, hclass, -⟩
    exact ⟨interface, className, hi, himpl, hclass⟩
  · rintro ⟨interface, className, hi, himpl, hclass⟩
    exact ⟨_, interface, className, hi, himpl, hclass, Or.inl rfl⟩

/-! ## A file with an interface and its implementation -/

/-- One file that declares an interface and a class that implements it. -/
def selfServing : Disk :=
  (default : Disk).put (SourcePath.ofText "A.java")
    (.text "interface I \x7b \x7d class C implements I \x7b \x7d")

theorem sources_selfServing : selfServing.sources (SourcePath.ofText ".") =
    [(⟨"", ["A.java"]⟩, "interface I \x7b \x7d class C implements I \x7b \x7d".toList)] := by
  decide +kernel

/-- Such a file depends on itself after the deep analysis. -/
theorem selfServing_loop :
    ∃ t, (do openProject .deep "."; analyze : Action Unit) (Session.ofDisk selfServing) =
        (.ok (), t) ∧
      (t.project.graph.edge? ⟨"", ["A.java"]⟩ ⟨"", ["A.java"]⟩).isSome = true := by
  rcases @openProject_analyze_arrives .deep (by decide) "." (Session.ofDisk selfServing) with
    ⟨_, t, hrun, hregular, hasStore, hproject⟩
  have hsources : (Session.ofDisk selfServing).disk.sources (SourcePath.ofText ".") =
      [(⟨"", ["A.java"]⟩, "interface I \x7b \x7d class C implements I \x7b \x7d".toList)] :=
    sources_selfServing
  rw [hsources] at hproject
  refine ⟨t, hrun, ?_⟩
  rw [hregular.graph.calls_in.edge_isSome_iff, hproject]
  refine ⟨"implements: I", (mem_names_loop_deepened _ _ (fun _ => rfl)).2
    ⟨"I", "C", ?_, ?_, ?_, Or.inr rfl⟩⟩
  · rw [get?_interfaces_fresh]
    rfl
  · rw [Table.getD, get?_implementations_fresh]
    exact List.mem_singleton.2 rfl
  · rw [get?_classes_fresh]
    rfl

end JavaDeps
