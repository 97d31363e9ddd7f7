import JavaDeps.Proofs.Calls
import JavaDeps.Proofs.Session

/-!
# Entering findings

An analysis only enters findings about the files that it reads. As long as no edit came in between,
entering such a finding never fails and keeps the graph in order.
-/

namespace JavaDeps

/-! ## Recording -/

namespace Graph

def record (g : Graph) : Finding → Graph
  | .declares file name qualified =>
    { g with
      classes := (g.classes.set name file).set qualified file
      declared := g.declared.alter file SortedSet.empty (fun s => s.insert name) }
  | .imports file name =>
    { g with imports := g.imports.alter file SortedSet.empty (fun s => s.insert name) }
  | .uses source target label =>
    g.setLabels source target (Labels.ofNames (g.names source target ++ [label]))
  | .usesOnce source target label =>
    if label ∈ g.names source target then g
    else g.setLabels source target (Labels.ofNames (g.names source target ++ [label]))
  | _ => g

def recordAll (g : Graph) (findings : List Finding) : Graph := findings.foldl record g

@[simp] theorem recordAll_nil (g : Graph) : g.recordAll [] = g := rfl

@[simp] theorem recordAll_cons (g : Graph) (f : Finding) (rest : List Finding) :
    g.recordAll (f :: rest) = (g.record f).recordAll rest := rfl

theorem recordAll_append (g : Graph) (first rest : List Finding) :
    g.recordAll (first ++ rest) = (g.recordAll first).recordAll rest :=
  List.foldl_append

end Graph

/-- The labels that a finding adds to an edge that carries some already. -/
def Finding.labelsFor (known : List String) (source target : SourcePath) : Finding → List String
  | .uses s t label => if s = source ∧ t = target then [label] else []
  | .usesOnce s t label => if (s = source ∧ t = target) ∧ label ∉ known then [label] else []
  | _ => []

namespace Graph

/-- A finding puts its labels behind those that are there. -/
theorem names_record (g : Graph) (f : Finding) (source target : SourcePath) :
    (g.record f).names source target =
      g.names source target ++ f.labelsFor (g.names source target) source target := by
  cases f with
  | uses s t label =>
    simp only [record, Finding.labelsFor, names_setLabels]
    by_cases h : s = source ∧ t = target
    · rcases h with ⟨rfl, rfl⟩
      simp
    · simp [h]
  | usesOnce s t label =>
    by_cases h : s = source ∧ t = target
    · rcases h with ⟨rfl, rfl⟩
      by_cases hl : label ∈ g.names s t <;>
        simp [record, Finding.labelsFor, names_setLabels, hl]
    · by_cases hl : label ∈ g.names s t <;>
        simp [record, Finding.labelsFor, names_setLabels, hl, h]
  | declares file name qualified => simp [record, Finding.labelsFor, names, labels]
  | imports file name => simp [record, Finding.labelsFor, names, labels]
  | _ => simp [record, Finding.labelsFor]

@[simp] theorem root_record (g : Graph) (f : Finding) : (g.record f).root = g.root := by
  cases f with
  | usesOnce source target label =>
    by_cases hl : label ∈ g.names source target <;> simp [record, hl, setLabels]
  | _ => rfl

@[simp] theorem root_recordAll (g : Graph) (findings : List Finding) :
    (g.recordAll findings).root = g.root := by
  induction findings generalizing g with
  | nil => rfl
  | cons f rest ih => rw [recordAll_cons, ih, root_record]

/-- Findings that declare no class leave the table of classes alone. -/
theorem classes_recordAll {findings : List Finding} (g : Graph)
    (h : ∀ f ∈ findings, ∀ file name qualified, f ≠ .declares file name qualified) :
    (g.recordAll findings).classes = g.classes := by
  induction findings generalizing g with
  | nil => rfl
  | cons f rest ih =>
    have hstep : (g.record f).classes = g.classes := by
      cases f with
      | declares file name qualified =>
        exact absurd rfl (h _ List.mem_cons_self file name qualified)
      | usesOnce source target label =>
        by_cases hl : label ∈ g.names source target <;> simp [record, hl, setLabels]
      | _ => rfl
    rw [recordAll_cons, ih _ (fun f' hf' => h f' (List.mem_cons_of_mem f hf')), hstep]

end Graph

def Facts.record (f : Facts) : Finding → Facts
  | .declaresInterface file name => { f with interfaces := f.interfaces.set name file }
  | .implements interface className =>
    { f with
      implementations :=
        f.implementations.alter interface SortedSet.empty (fun s => s.insert className) }
  | .servesIn service implementation file =>
    { f with
      serviceFiles := f.serviceFiles.set service file
      implementedServices := f.implementedServices.set implementation service }
  | .types file name type =>
    { f with fieldTypes := f.fieldTypes.alter file Table.empty (fun t => t.set name type) }
  | .conditionUses source target label =>
    { f with conditionCalls := addLabel f.conditionCalls source target label }
  | .chainUses source target label =>
    { f with chainedCalls := addLabel f.chainedCalls source target label }
  | .injects file type =>
    { f with injected := f.injected.alter file SortedSet.empty (fun s => s.insert type) }
  | .listsTypes file => { f with fieldTypes := f.fieldTypes.ensure file Table.empty }
  | .listsConditions file => { f with conditionCalls := f.conditionCalls.ensure file Table.empty }
  | .listsChains file => { f with chainedCalls := f.chainedCalls.ensure file Table.empty }
  | .listsInjected file => { f with injected := f.injected.ensure file SortedSet.empty }
  | _ => f

namespace Project

def record (p : Project) (f : Finding) : Project :=
  { p with graph := p.graph.record f, facts := p.facts.record f }

def recordAll (p : Project) (findings : List Finding) : Project := findings.foldl record p

@[simp] theorem recordAll_nil (p : Project) : p.recordAll [] = p := rfl

@[simp] theorem recordAll_cons (p : Project) (f : Finding) (rest : List Finding) :
    p.recordAll (f :: rest) = (p.record f).recordAll rest := rfl

theorem recordAll_append (p : Project) (first rest : List Finding) :
    p.recordAll (first ++ rest) = (p.recordAll first).recordAll rest :=
  List.foldl_append

@[simp] theorem graph_recordAll (p : Project) (findings : List Finding) :
    (p.recordAll findings).graph = p.graph.recordAll findings := by
  induction findings generalizing p with
  | nil => rfl
  | cons f rest ih => exact ih (p.record f)

/-- A part of the project that no finding of a list changes. -/
theorem recordAll_keeps {γ : Type} (view : Project → γ) {findings : List Finding} (p : Project)
    (h : ∀ f ∈ findings, ∀ q : Project, view (q.record f) = view q) :
    view (p.recordAll findings) = view p := by
  induction findings generalizing p with
  | nil => rfl
  | cons f rest ih =>
    rw [recordAll_cons, ih _ (fun f' hf' => h f' (List.mem_cons_of_mem f hf'))]
    exact h f List.mem_cons_self p

end Project

namespace Graph

/-- A graph as an analysis builds it up. The files are those described by `inside`, the names of
classes those described by `spelled`. -/
structure Regular (inside : SourcePath → Prop) (spelled : String → Prop) (g : Graph) : Prop where
  isOpen : g.closed = false
  class_inside : ∀ e ∈ g.classes.entries, inside e.2
  class_spelled : ∀ e ∈ g.classes.entries, spelled e.1
  /-- A class is listed with a file that declares classes. -/
  class_declared : ∀ e ∈ g.classes.entries, (g.classesOf e.2).toList ≠ []
  /-- A declared class is listed, if maybe with another file. -/
  declared_class : ∀ file, ∀ name ∈ (g.classesOf file).toList, name ∈ g.classes.keys
  calls_in : CallsIn inside g.calls

end Graph

def Finding.Fits (inside : SourcePath → Prop) (spelled : String → Prop) : Finding → Prop
  | .declares file name qualified => inside file ∧ spelled name ∧ spelled qualified
  | .uses source target _ => inside source ∧ inside target
  | .usesOnce source target _ => inside source ∧ inside target
  | .declaresInterface file _ => inside file
  | _ => True

/-! ## One finding -/

section

variable {inside : SourcePath → Prop} {spelled : String → Prop}

namespace Graph.Regular

theorem ofRoot (root : SourcePath) : Regular inside spelled (Graph.ofRoot root) := by
  refine ⟨rfl, ?_, ?_, ?_, ?_, CallsIn.empty⟩ <;>
    simp [Graph.ofRoot, Graph.classesOf, SortedSet.empty, SortedSet.toList]

variable {g : Graph}

theorem setLabels (h : Regular inside spelled g) {source target : SourcePath} (hs : inside source)
    (ht : inside target) {names : List String} (hn : names ≠ []) :
    Regular inside spelled (g.setLabels source target (Labels.ofNames names)) :=
  { h with calls_in := h.calls_in.setLabels hs ht hn }

/-- A declared class is listed with its file, under both names. -/
theorem declares (h : Regular inside spelled g) {file : SourcePath} {name qualified : String}
    (hf : inside file) (hn : spelled name) (hq : spelled qualified) :
    Regular inside spelled (g.record (.declares file name qualified)) := by
  have hentry : ∀ e ∈ (g.record (.declares file name qualified)).classes.entries,
      e = (qualified, file) ∨ e = (name, file) ∨ e ∈ g.classes.entries := by
    intro e he
    rcases Table.mem_set he with hq | he
    · exact Or.inl hq
    · exact Or.inr (Table.mem_set he)
  have hclassesOf : ∀ f, (g.record (.declares file name qualified)).classesOf f =
      if file = f then (g.classesOf file).insert name else g.classesOf f := by
    intro f
    simp [Graph.record, Graph.classesOf, Table.getD_alter]
  -- Only the classes and the names of the file have changed.
  refine ⟨h.isOpen, ?_, ?_, ?_, ?_, h.calls_in⟩
  · intro e he
    rcases hentry e he with rfl | rfl | he
    · exact hf
    · exact hf
    · exact h.class_inside e he
  · intro e he
    rcases hentry e he with rfl | rfl | he
    · exact hq
    · exact hn
    · exact h.class_spelled e he
  · intro e he
    rw [hclassesOf]
    by_cases heq : file = e.2
    · simp only [heq, if_true]
      exact List.ne_nil_of_mem (SortedSet.mem_insert.2 (Or.inl rfl))
    · simp only [heq, if_false]
      rcases hentry e he with rfl | rfl | he
      · exact absurd rfl heq
      · exact absurd rfl heq
      · exact h.class_declared e he
  · intro f n hmem
    rw [hclassesOf] at hmem
    have hn' : n = name ∨ n ∈ g.classes.keys := by
      by_cases heq : file = f
      · rw [if_pos heq] at hmem
        exact (SortedSet.mem_insert.1 hmem).imp_right (h.declared_class file n)
      · rw [if_neg heq] at hmem
        exact Or.inr (h.declared_class f n hmem)
    exact Table.mem_keys_set.2 (Or.inr (Table.mem_keys_set.2 hn'))

/-- Recording a finding of the analysis keeps a graph regular. -/
theorem record (h : Regular inside spelled g) {f : Finding} (hf : f.Fits inside spelled) :
    Regular inside spelled (g.record f) := by
  cases f with
  | declares file name qualified => exact h.declares hf.1 hf.2.1 hf.2.2
  | uses source target label => exact h.setLabels hf.1 hf.2 (by simp)
  | usesOnce source target label =>
    by_cases hl : label ∈ g.names source target
    · simpa [Graph.record, hl] using h
    · simpa [Graph.record, hl] using h.setLabels hf.1 hf.2 (by simp)
  | imports file name => exact { h with }
  | _ => exact h

end Graph.Regular

namespace Project

/-- A project as an analysis builds it up. -/
structure Regular (inside : SourcePath → Prop) (spelled : String → Prop) (p : Project) : Prop where
  graph : p.graph.Regular inside spelled
  interface_inside : ∀ e ∈ p.facts.interfaces.entries, inside e.2

variable {p : Project}

/-- Entering a finding never fails in a regular project, and records the finding. -/
theorem enter_record (h : p.graph.Regular inside spelled) (f : Finding) :
    p.enter f = (.ok (), p.record f) := by
  cases f with
  | declares file name qualified =>
    simp [enter, declare, h.isOpen, record, Graph.record, Facts.record]
  | uses source target label =>
    simp [enter, withGraph, Graph.addCall_eq h.calls_in, record, Graph.record, Facts.record]
  | usesOnce source target label =>
    simp [enter, withGraph, Graph.addCallOnce_eq h.calls_in, record, Graph.record, Facts.record]
  | _ => rfl

theorem Regular.record (h : p.Regular inside spelled) {f : Finding} (hf : f.Fits inside spelled) :
    (p.record f).Regular inside spelled := by
  refine ⟨h.graph.record hf, fun e he => ?_⟩
  cases f with
  | declaresInterface file name =>
    rcases Table.mem_set he with rfl | he
    · exact hf
    · exact h.interface_inside e he
  | _ => exact h.interface_inside e he

/-! ## Several findings -/

/-- Findings of the analysis keep a project regular. -/
theorem Regular.recordAll {findings : List Finding} (h : p.Regular inside spelled)
    (hfs : ∀ f ∈ findings, f.Fits inside spelled) :
    (p.recordAll findings).Regular inside spelled := by
  induction findings generalizing p with
  | nil => exact h
  | cons f rest ih =>
    have hfirst : (p.record f).Regular inside spelled := h.record (hfs f List.mem_cons_self)
    exact ih hfirst (fun f' hf' => hfs f' (List.mem_cons_of_mem f hf'))

/-- Entering findings never fails in a regular project, and records all of them. -/
theorem enterAll_record {findings : List Finding} (h : p.Regular inside spelled)
    (hfs : ∀ f ∈ findings, f.Fits inside spelled) :
    p.enterAll findings = (.ok (), p.recordAll findings) := by
  induction findings generalizing p with
  | nil => rfl
  | cons f rest ih =>
    have hfirst : (p.record f).Regular inside spelled := h.record (hfs f List.mem_cons_self)
    rw [Project.enterAll, enter_record h.graph]
    exact ih hfirst (fun f' hf' => hfs f' (List.mem_cons_of_mem f hf'))

end Project

end

end JavaDeps
