import JavaDeps.Proofs.Analysis.Names
import JavaDeps.Proofs.Selection.Choice

/-!
# Labels with a mark

The labels that the deep analysis adds to the plain ones start with a mark that tells where they
come from. The analysis looks whether such a label is there before it enters it, while the calls of
the plain analysis are entered as often as they are found.
-/

namespace JavaDeps

/-! ## Marks -/

def Marked (marks : List String) (label : String) : Prop :=
  ∃ mark ∈ marks, Text.starts label mark = true

def detailMarks : List String :=
  ["field: ", "nested-type: ", "if-condition: ", "enum-access: ", "switch(", "chain: ",
   "stream-ops: ", "@Autowired: "]

/-- The marks of the links between interfaces and the classes that implement them. -/
def linkMarks : List String := ["implemented-by: ", "implements: "]

def onceMarks : List String := detailMarks ++ linkMarks

namespace Marked

variable {marks : List String} {label : String}

theorem of_mem {mark : String} (h : mark ∈ marks) (rest : String) : Marked marks (mark ++ rest) :=
  ⟨mark, h, starts_append mark rest⟩

theorem append (h : Marked marks label) (rest : String) : Marked marks (label ++ rest) := by
  rcases h with ⟨mark, hmark, hstarts⟩
  refine ⟨mark, hmark, ?_⟩
  rw [Text.starts, List.isPrefixOf_iff_prefix] at hstarts ⊢
  rw [String.toList_append]
  exact hstarts.trans (List.prefix_append _ _)

theorem mono (h : Marked marks label) {more : List String} (hmore : marks ⊆ more) :
    Marked more label := by
  rcases h with ⟨mark, hmark, hstarts⟩
  exact ⟨mark, hmore hmark, hstarts⟩

/-- A label that starts otherwise than all marks has none of them. -/
theorem not_of_starts (first : String) (h : Text.starts label first = true)
    (hapart : ∀ mark ∈ marks, (Text.starts first mark || Text.starts mark first) = false) :
    ¬ Marked marks label := by
  rintro ⟨mark, hmark, hstarts⟩
  rw [Choice.starts_eq_false h mark (hapart mark hmark)] at hstarts
  cases hstarts

/-- The name of a method has no mark: every mark holds a character that no name holds. -/
theorem not_of_isName (h : Java.IsName Java.isSmall label.toList) : ¬ Marked onceMarks label := by
  have hother : ∀ mark ∈ onceMarks, mark.toList.all Java.isNameChar = false := by decide
  rintro ⟨mark, hmark, hstarts⟩
  have hfirst := List.isPrefixOf_iff_prefix.1 hstarts
  have hall : mark.toList.all Java.isNameChar = true :=
    List.all_eq_true.2
      (fun c hc => h.all (fun _ => Java.isNameChar_of_isSmall) c (hfirst.subset hc))
  rw [hother mark hmark] at hall
  cases hall

end Marked

/-! ## Findings of the phases -/

/-- The findings add labels with the marks once and other labels without a mark, and what they tell
of conditions and chains they enter into the graph too. -/
structure Enters (marks : List String) (findings : List Finding) : Prop where
  unmarked : ∀ {source target label}, .uses source target label ∈ findings →
    ¬ Marked onceMarks label
  marked : ∀ {source target label}, .usesOnce source target label ∈ findings → Marked marks label
  told : ∀ {source target label}, .conditionUses source target label ∈ findings ∨
    .chainUses source target label ∈ findings → .usesOnce source target label ∈ findings

def Finding.isFact : Finding → Bool
  | .uses _ _ _ => false
  | .usesOnce _ _ _ => false
  | .conditionUses _ _ _ => false
  | .chainUses _ _ _ => false
  | _ => true

section

variable {marks : List String} {g : Graph} {file : SourcePath} {text : List Char}

namespace Enters

/-- Lists of findings that enter marked labels may be joined. -/
theorem append {first rest : List Finding} (h : Enters marks first) (h' : Enters marks rest) :
    Enters marks (first ++ rest) where
  unmarked hf := (List.mem_append.1 hf).elim h.unmarked h'.unmarked
  marked hf := (List.mem_append.1 hf).elim h.marked h'.marked
  told hf := by
    simp only [List.mem_append] at hf ⊢
    rcases hf with (hf | hf) | (hf | hf)
    · exact Or.inl (h.told (Or.inl hf))
    · exact Or.inr (h'.told (Or.inl hf))
    · exact Or.inl (h.told (Or.inr hf))
    · exact Or.inr (h'.told (Or.inr hf))

/-- Facts, and uses with labels that have no mark. -/
theorem of_plain {findings : List Finding} (h : ∀ f ∈ findings, f.isFact = true ∨
    ∃ source target label, f = .uses source target label ∧ ¬ Marked onceMarks label) :
    Enters marks findings := by
  refine ⟨fun hf => ?_, fun hf => ?_, fun hf => ?_⟩
  · rcases h _ hf with hfact | ⟨_, _, _, heq, hlabel⟩
    · cases hfact
    · cases heq
      exact hlabel
  · rcases h _ hf with hfact | ⟨_, _, _, heq, -⟩
    · cases hfact
    · cases heq
  · rcases hf with hf | hf <;> rcases h _ hf with hfact | ⟨_, _, _, heq, -⟩ <;>
      first | cases hfact | cases heq

theorem nothing : Enters marks [] := of_plain (fun _ hf => by cases hf)

/-- A fact beside the graph enters no label. -/
theorem fact {f : Finding} (h : f.isFact = true) : Enters marks [f] :=
  of_plain (fun _ hf => Or.inl (List.mem_singleton.1 hf ▸ h))

theorem flatMap {α : Type} {xs : List α} {f : α → List Finding} (h : ∀ x, Enters marks (f x)) :
    Enters marks (xs.flatMap f) := by
  induction xs with
  | nil => exact nothing
  | cons x rest ih => exact (h x).append ih

/-- A marked use may be entered with what is kept for conditions and chains. -/
theorem use {label : String} (h : Marked marks label) (target : SourcePath) :
    Enters marks [.usesOnce file target label] ∧
      Enters marks [.conditionUses file target label, .usesOnce file target label] ∧
      Enters marks [.chainUses file target label, .usesOnce file target label] := by
  have hmarked : ∀ {source' target' label'},
      Finding.usesOnce source' target' label' = .usesOnce file target label →
        Marked marks label' := by
    intro _ _ _ heq
    cases heq
    exact h
  exact ⟨⟨by simp, fun hf => hmarked (by simpa using hf), by simp⟩,
    ⟨by simp, fun hf => hmarked (by simpa using hf), by simp⟩,
    ⟨by simp, fun hf => hmarked (by simpa using hf), by simp⟩⟩

theorem usesClassOnce {label : String} (h : Marked marks label) (className : String) :
    Enters marks (usesClassOnce g file className label) := by
  unfold JavaDeps.usesClassOnce
  split
  · exact (use h _).1
  · exact nothing

theorem conditionUse {label : String} (h : Marked marks label) (type? : Option String) :
    Enters marks (conditionUse g file type? label) ∧
      Enters marks (chainUse g file type? label) := by
  unfold JavaDeps.conditionUse chainUse
  cases type? with
  | none => exact ⟨nothing, nothing⟩
  | some type =>
    cases hother : g.otherFile? file type with
    | none => simpa only [hother] using ⟨nothing, nothing⟩
    | some target => simpa only [hother] using (use h target).2

end Enters

/-- The closer look at a file enters only labels with the marks of details. -/
theorem detailFindings_enters (p : Project) (file : SourcePath) (text : List Char) :
    Enters detailMarks (detailFindings p file text) := by
  have hmark : ∀ {mark : String}, mark ∈ detailMarks → ∀ rest, Marked detailMarks (mark ++ rest) :=
    fun h rest => Marked.of_mem h rest
  have hfields : ∀ q, Enters detailMarks (fieldRound q file text) := by
    intro q
    refine Enters.append
      (Enters.append (Enters.flatMap (fun d => ?_)) (Enters.flatMap (fun n => ?_)))
      (Enters.fact rfl)
    · exact Enters.append (Enters.fact (f := .types file d.2 d.1) rfl)
        (Enters.usesClassOnce (hmark (by decide) _) _)
    · exact Enters.usesClassOnce (((hmark (by decide) _).append _).append _) _
  have hconditions : ∀ q, Enters detailMarks (conditionRound q file text) := by
    intro q
    refine Enters.append (Enters.append (Enters.append (Enters.flatMap (fun c => ?_))
      (Enters.flatMap (fun c => ?_))) (Enters.flatMap (fun v => ?_))) (Enters.fact rfl)
    · exact (Enters.conditionUse ((((hmark (by decide) _).append _).append _).append _) _).1
    · exact (Enters.conditionUse (((hmark (by decide) _).append _).append _) _).1
    · exact (Enters.conditionUse ((hmark (by decide) _).append _) _).1
  have hchains : ∀ q, Enters detailMarks (chainRound q file text) := by
    intro q
    refine Enters.append
      (Enters.append (Enters.flatMap (fun c => ?_)) (Enters.flatMap (fun v => ?_)))
      (Enters.fact rfl)
    · exact (Enters.conditionUse ((hmark (by decide) _).append _) _).2
    · exact (Enters.conditionUse (hmark (by decide) _) _).2
  have hinjections : ∀ q, Enters detailMarks (injectionRound q file text) := by
    intro q
    refine Enters.append (Enters.flatMap (fun d => ?_)) (Enters.fact rfl)
    refine Enters.append (Enters.append (Enters.fact (f := .injects file d.1) rfl)
      (Enters.usesClassOnce (hmark (by decide) _) _)) (Enters.flatMap (fun c => ?_))
    exact Enters.usesClassOnce (((hmark (by decide) _).append _).append _) _
  exact (hfields _).append ((hconditions _).append ((hchains _).append (hinjections _)))

/-- The plain analysis enters no label once. -/
theorem callFindings_enters : Enters marks (callFindings g file text) := by
  refine Enters.of_plain (fun f hf => ?_)
  simp only [callFindings, List.mem_append, List.mem_map, List.mem_filterMap, usesClass,
    Option.map_eq_some_iff] at hf
  rcases hf with ((⟨name, -, rfl⟩ | ⟨c, hc, t, -, rfl⟩) | ⟨c, hc, t, -, rfl⟩) | ⟨c, -, t, -, rfl⟩
  · exact Or.inl rfl
  · exact Or.inr ⟨file, t, c.2, rfl, Marked.not_of_isName (Java.isName_of_mem_memberCalls hc)⟩
  · exact Or.inr ⟨file, t, c.2, rfl, Marked.not_of_isName (Java.isName_of_mem_serviceCalls hc)⟩
  · refine Or.inr ⟨file, t, _, rfl, Marked.not_of_starts "new " ?_ (by decide)⟩
    rw [String.append_assoc]
    exact starts_append _ _

theorem clauseFindings_enters (facts : Facts) : Enters marks (clauseFindings facts file text) := by
  refine Enters.of_plain (fun f hf => ?_)
  simp only [clauseFindings, List.mem_flatMap] at hf
  rcases hf with ⟨c, -, interface, -, hf⟩
  rcases mem_implementationFindings hf with rfl | ⟨target, -, -, rfl⟩
  · exact Or.inl rfl
  · exact Or.inr ⟨file, target, _, rfl, Marked.not_of_starts _ (starts_append _ _) (by decide)⟩

theorem serviceFindings_enters (files : List SourcePath) :
    Enters marks (serviceFindings files file text) := by
  refine Enters.of_plain (fun f hf => ?_)
  rcases mem_serviceFindings hf with ⟨_, _, _, rfl⟩ | ⟨target, -, -, rfl⟩
  · exact Or.inl rfl
  · exact Or.inr ⟨file, target, _, rfl, Marked.not_of_starts "implemented_by" rfl (by decide)⟩

/-- The last phase enters only labels with the marks of links. -/
theorem crossFindings_enters (facts : Facts) : Enters linkMarks (crossFindings g facts) := by
  have hlinks : ∀ {f}, f ∈ crossFindings g facts →
      ∃ source target label, f = .usesOnce source target label ∧ Marked linkMarks label := by
    intro f hf
    rcases mem_crossFindings.1 hf with ⟨_, -, _, -, _, _, -, -, rfl | rfl⟩
    · exact ⟨_, _, _, rfl, Marked.of_mem (by decide) _⟩
    · exact ⟨_, _, _, rfl, Marked.of_mem (by decide) _⟩
  refine ⟨fun hf => ?_, fun hf => ?_, fun hf => ?_⟩
  · rcases hlinks hf with ⟨_, _, _, heq, -⟩
    cases heq
  · rcases hlinks hf with ⟨_, _, _, heq, hlabel⟩
    cases heq
    exact hlabel
  · rcases hf with hf | hf <;> rcases hlinks hf with ⟨_, _, _, heq, -⟩ <;> cases heq

end

/-- What findings of the phases before the last one preserve, these phases preserve. -/
theorem Project.examined_induction {I : Project → Prop}
    (hstep : ∀ findings, Enters detailMarks findings → ∀ q : Project, I q →
      I (q.recordAll findings))
    {p : Project} (hp : I p) (files : List SourcePath) (sources : List (SourcePath × List Char)) :
    I (p.examined files sources) := by
  have hround : ∀ {findings : Project → SourcePath → List Char → List Finding} {q : Project},
      (∀ r file text, Enters detailMarks (findings r file text)) → I q →
        I (q.round findings sources) :=
    fun h hq => Project.round_induction (fun e _ r hr => hstep _ (h r e.1 e.2) r hr) hq
  have hfacts : ∀ {names : List String} {f : String → Finding}, (∀ name, (f name).isFact = true) →
      Enters detailMarks (names.map f) := by
    intro names f h
    refine Enters.of_plain (fun x hx => ?_)
    rcases List.mem_map.1 hx with ⟨name, -, rfl⟩
    exact Or.inl (h name)
  -- The rounds from the last one on: the closer look, services, implementations, interfaces, calls
  -- and declarations.
  refine hround (fun r => detailFindings_enters r) ?_
  refine hround (fun _ _ _ => serviceFindings_enters files) ?_
  refine hround (fun r _ _ => clauseFindings_enters r.facts) ?_
  refine hround (fun _ _ _ => hfacts (fun _ => rfl)) ?_
  refine hround (fun _ _ _ => callFindings_enters) ?_
  exact hround (fun _ _ _ => hfacts (fun _ => rfl)) hp

/-! ## Labels that are there once -/

/-- The labels of a file for another one that are kept for its conditions and chains. -/
def Facts.told (f : Facts) (source target : SourcePath) : List String :=
  (f.conditionCalls.getD source Table.empty).getD target []
    ++ (f.chainedCalls.getD source Table.empty).getD target []

/-- A label that is kept was kept before, or is the one that is added. -/
theorem mem_addLabel {t : Table SourcePath (Table SourcePath (List String))}
    {s target s' target' : SourcePath} {l label : String}
    (h : label ∈ ((addLabel t s target l).getD s' Table.empty).getD target' []) :
    label ∈ (t.getD s' Table.empty).getD target' [] ∨ s = s' ∧ target = target' ∧ l = label := by
  rw [addLabel, Table.getD_alter] at h
  by_cases hs : s = s'
  · subst hs
    rw [beq_self_eq_true, if_pos rfl, Table.getD_alter] at h
    by_cases ht : target = target'
    · subst ht
      simpa [eq_comm] using h
    · simp only [beq_iff_eq, ht, if_false] at h
      exact Or.inl h
  · simp only [beq_iff_eq, hs, if_false] at h
    exact Or.inl h

/-- What is kept for conditions and chains was kept before, or is the finding that is recorded. -/
theorem mem_told_record {f : Finding} {p : Project} {source target : SourcePath} {label : String}
    (h : label ∈ (p.record f).facts.told source target) :
    label ∈ p.facts.told source target ∨ .conditionUses source target label = f ∨
      .chainUses source target label = f := by
  simp only [Facts.told, List.mem_append] at h ⊢
  cases f with
  | conditionUses s t l =>
    rcases h with h | h
    · rcases mem_addLabel h with h | ⟨rfl, rfl, rfl⟩
      · exact Or.inl (Or.inl h)
      · exact Or.inr (Or.inl rfl)
    · exact Or.inl (Or.inr h)
  | chainUses s t l =>
    rcases h with h | h
    · exact Or.inl (Or.inl h)
    · rcases mem_addLabel h with h | ⟨rfl, rfl, rfl⟩
      · exact Or.inl (Or.inr h)
      · exact Or.inr (Or.inr rfl)
  | listsConditions file =>
    simp only [Project.record, Facts.record, Table.getD_ensure] at h
    exact Or.inl h
  | listsChains file =>
    simp only [Project.record, Facts.record, Table.getD_ensure] at h
    exact Or.inl h
  | _ => exact Or.inl h

/-- What is kept for conditions and chains was found for them. -/
theorem mem_told_recordAll {findings : List Finding} {p : Project} {source target : SourcePath}
    {label : String} (h : label ∈ (p.recordAll findings).facts.told source target) :
    label ∈ p.facts.told source target ∨ .conditionUses source target label ∈ findings ∨
      .chainUses source target label ∈ findings := by
  induction findings generalizing p with
  | nil => exact Or.inl h
  | cons f rest ih =>
    rcases ih h with h | h | h
    · rcases mem_told_record h with h | rfl | rfl
      · exact Or.inl h
      · exact Or.inr (Or.inl List.mem_cons_self)
      · exact Or.inr (Or.inr List.mem_cons_self)
    · exact Or.inr (Or.inl (List.mem_cons_of_mem _ h))
    · exact Or.inr (Or.inr (List.mem_cons_of_mem _ h))

/-- Marked labels are on an edge at most once, and what is kept for conditions and chains is marked
and on the edge. -/
structure Project.Covered (p : Project) : Prop where
  once : ∀ {source target label}, Marked onceMarks label →
    (p.graph.names source target).count label ≤ 1
  told : ∀ {source target label}, label ∈ p.facts.told source target →
    Marked onceMarks label ∧ label ∈ p.graph.names source target

/-- Findings that enter marked labels keep a project covered. -/
theorem Project.Covered.recordAll {p : Project} (h : p.Covered) {marks : List String}
    (hmarks : marks ⊆ onceMarks) {findings : List Finding} (hfindings : Enters marks findings) :
    (p.recordAll findings).Covered := by
  refine ⟨fun hlabel => ?_, fun htold => ?_⟩
  · rw [Project.graph_recordAll]
    rw [Graph.count_names_recordAll (fun hf => hfindings.unmarked hf hlabel)]
    exact Nat.max_le.2 ⟨h.once hlabel, by split <;> decide⟩
  · rw [Project.graph_recordAll, Graph.mem_names_recordAll]
    rcases mem_told_recordAll htold with htold | hf
    · exact (h.told htold).imp_right Or.inl
    · exact ⟨(hfindings.marked (hfindings.told hf)).mono hmarks,
        Or.inr (Or.inr (hfindings.told hf))⟩

/-- The project is covered after all phases of the deep analysis. -/
theorem Project.covered_deepened (depth : Depth) (hasStore : Bool) (root : SourcePath)
    (files : List SourcePath) (sources : List (SourcePath × List Char)) :
    ((Project.fresh depth hasStore root).deepened files sources).Covered := by
  have hfresh : (Project.fresh depth hasStore root).Covered :=
    ⟨fun _ => Nat.zero_le 1, fun htold => by cases htold⟩
  have hexamined := Project.examined_induction (I := Project.Covered)
    (fun _ hfindings _ hq => hq.recordAll (List.subset_append_left _ _) hfindings)
      hfresh files sources
  exact hexamined.recordAll (List.subset_append_right _ _) (crossFindings_enters _)

/-- After the deep analysis of a directory, every label that is kept for the conditions or the
chains of a file is on the edge exactly once, and so is, if at all, every label that starts with the
mark of a field, a nested type, an injected field or a link to an interface or an implementation. -/
theorem marked_labels_once (root : String) (s : Session) :
    ∃ t, (do openProject .deep root; analyze : Action Unit) s = (.ok (), t) ∧
      ∀ source target, ∃ names, t.project.graph.labels source target = Labels.ofNames names ∧
        ∀ label,
          (label ∈ (t.project.facts.conditionCalls.getD source Table.empty).getD target [] ∨
            label ∈ (t.project.facts.chainedCalls.getD source Table.empty).getD target [] →
            names.count label = 1) ∧
          (Marked ["field: ", "nested-type: ", "@Autowired: ", "implemented-by: ", "implements: "]
            label → names.count label ≤ 1) := by
  rcases @openProject_analyze_arrives .deep (by decide) root s with
    ⟨_, t, hrun, hregular, hasStore, hproject⟩
  have hcovered : t.project.Covered := hproject ▸ Project.covered_deepened _ _ _ _ _
  refine ⟨t, hrun, fun source target => ⟨t.project.graph.names source target,
    hregular.graph.calls_in.labels source target,
      fun label => ⟨fun hlabel => ?_, fun hlabel => ?_⟩⟩⟩
  · rcases hcovered.told (List.mem_append.2 hlabel) with ⟨hmarked, hmem⟩
    exact Nat.le_antisymm (hcovered.once hmarked) (List.count_pos_iff.2 hmem)
  · exact hcovered.once (hlabel.mono (by decide))

/-! ## Links -/

/-- Only the last phase enters links. -/
theorem unlinked_examined (depth : Depth) (hasStore : Bool) (root : SourcePath)
    (files : List SourcePath) (sources : List (SourcePath × List Char)) {source target : SourcePath}
    {label : String} (hlabel : Marked linkMarks label) :
    label ∉ ((Project.fresh depth hasStore root).examined files sources).graph.names
      source target := by
  have hapart : ∀ first ∈ detailMarks, ∀ mark ∈ linkMarks,
      (Text.starts first mark || Text.starts mark first) = false := by decide
  refine Project.examined_induction (I := fun q => label ∉ q.graph.names source target)
    (fun findings hfindings q hq hmem => ?_) (fun hmem => by cases hmem) files sources
  rw [Project.graph_recordAll, Graph.mem_names_recordAll] at hmem
  rcases hmem with hmem | hmem | hmem
  · exact hq hmem
  · exact hfindings.unmarked hmem (hlabel.mono (List.subset_append_right _ _))
  · rcases hfindings.marked hmem with ⟨first, hfirst, hstarts⟩
    exact Marked.not_of_starts first hstarts (hapart first hfirst) hlabel

/-- After the deep analysis of a directory, the file of an interface is linked to that of a class by
the name of the class exactly if the class implements an interface of this file, and the file of the
class is linked back by the name of the interface exactly if one of its classes implements the
interface. -/
theorem interface_links_iff (root : String) (s : Session) :
    ∃ t, (do openProject .deep root; analyze : Action Unit) s = (.ok (), t) ∧
      ∀ file classFile,
        (∀ className, "implemented-by: " ++ className ∈ t.project.graph.names file classFile ↔
          ∃ interface, t.project.facts.interfaces.get? interface = some file ∧
            className ∈ (t.project.facts.implementations.getD interface SortedSet.empty).toList ∧
            t.project.graph.classes.get? className = some classFile) ∧
        ∀ interface, "implements: " ++ interface ∈ t.project.graph.names classFile file ↔
          t.project.facts.interfaces.get? interface = some file ∧
            ∃ className ∈ (t.project.facts.implementations.getD interface SortedSet.empty).toList,
              t.project.graph.classes.get? className = some classFile := by
  rcases @openProject_analyze_arrives .deep (by decide) root s with
    ⟨_, t, hrun, -, hasStore, hproject⟩
  have hlinks := fun source target label (hlabel : Marked linkMarks label) =>
    mem_names_deepened (s.disk.javaFiles (SourcePath.ofText root))
      (s.disk.sources (SourcePath.ofText root))
        (@unlinked_examined .deep hasStore (SourcePath.ofText root) _ _ source target label hlabel)
  rw [← hproject] at hlinks
  -- The marks of both directions tell their labels apart.
  have hapart : ∀ className interface : String,
      "implemented-by: " ++ className ≠ "implements: " ++ interface := by
    intro className interface heq
    have hstarts := starts_append "implements: " interface
    rw [← heq, Choice.starts_eq_false (starts_append _ className) _ (by decide)] at hstarts
    cases hstarts
  refine ⟨t, hrun, fun file classFile => ⟨fun className => ?_, fun interface => ?_⟩⟩
  · rw [hlinks _ _ _ (Marked.of_mem (by decide) className)]
    constructor
    · rintro ⟨interface, name, _, _, hi, himpl, hclass, ⟨rfl, rfl, heq⟩ | ⟨-, -, heq⟩⟩
      · rw [String.append_right_inj] at heq
        exact ⟨interface, hi, heq ▸ himpl, heq ▸ hclass⟩
      · exact absurd heq (hapart _ _)
    · rintro ⟨interface, hi, himpl, hclass⟩
      exact ⟨interface, className, file, classFile, hi, himpl, hclass, Or.inl ⟨rfl, rfl, rfl⟩⟩
  · rw [hlinks _ _ _ (Marked.of_mem (by decide) interface)]
    constructor
    · rintro ⟨name, className, _, _, hi, himpl, hclass, ⟨-, -, heq⟩ | ⟨rfl, rfl, heq⟩⟩
      · exact absurd heq.symm (hapart _ _)
      · rw [String.append_right_inj] at heq
        subst heq
        exact ⟨hi, className, himpl, hclass⟩
    · rintro ⟨hi, className, himpl, hclass⟩
      exact ⟨interface, className, file, classFile, hi, himpl, hclass, Or.inr ⟨rfl, rfl, rfl⟩⟩

end JavaDeps
