import JavaDeps.Proofs.Analysis.Resolution
import JavaDeps.Proofs.Edits.Links
import JavaDeps.Proofs.Except
import JavaDeps.Proofs.Selection.Restrict
import JavaDeps.Selection.Labels

/-!
# Classes and the files that declare them

A class is listed with a file that declares it. An analysis makes this so, and neither a restriction
to chosen classes and calls nor a reduction of the calls to chosen labels changes it. Both keep only
edges that were there.
-/

namespace JavaDeps

/-! ## Filed graphs -/

/-- Every class is listed with a file that declares it, under the part of the name after its last
dot; the names that a file declares have no dots. -/
structure Graph.Filed (g : Graph) : Prop where
  class_declared : ∀ e ∈ g.classes.entries,
    ∃ names, g.declared.get? e.2 = some names ∧ Text.lastPart e.1 '.' ∈ names.toList
  declared_simple : ∀ {file names}, g.declared.get? file = some names →
    ∀ name ∈ names.toList, Text.lastPart name '.' = name

/-- A class is declared under the last part of its qualified name. -/
def Finding.WellNamed : Finding → Prop
  | .declares _ name qualified => Text.lastPart name '.' = name ∧ Text.lastPart qualified '.' = name
  | _ => True

namespace Graph.Filed

variable {g : Graph}

theorem ofRoot (root : SourcePath) : (Graph.ofRoot root).Filed := by
  constructor
  · intro e he
    cases he
  · intro file names h
    cases h

theorem congr {g' : Graph} (h : g.Filed) (hclasses : g'.classes = g.classes)
    (hdeclared : g'.declared = g.declared) : g'.Filed := by
  constructor
  · rw [hclasses, hdeclared]
    exact h.class_declared
  · rw [hdeclared]
    exact h.declared_simple

/-- A class that is declared under its last part keeps the classes filed. -/
theorem declares (h : g.Filed) {file : SourcePath} {name qualified : String}
    (hname : Text.lastPart name '.' = name) (hqualified : Text.lastPart qualified '.' = name) :
    (g.record (.declares file name qualified)).Filed := by
  have hdeclared : ∀ f, (g.record (.declares file name qualified)).declared.get? f =
      if file = f then some ((g.classesOf file).insert name) else g.declared.get? f := by
    intro f
    simp [Graph.record, Table.get?_alter, Graph.classesOf]
  have hnew : name ∈ ((g.classesOf file).insert name).toList := SortedSet.mem_insert.2 (Or.inl rfl)
  constructor
  · intro e he
    rw [hdeclared]
    -- The class is listed twice, under its qualified and under its plain name.
    rcases Table.mem_set he with rfl | he
    · exact ⟨_, if_pos rfl, hqualified.symm ▸ hnew⟩
    · rcases Table.mem_set he with rfl | he
      · exact ⟨_, if_pos rfl, hname.symm ▸ hnew⟩
      · rcases h.class_declared e he with ⟨names, hnames, hmem⟩
        by_cases hfile : file = e.2
        · -- The file was listed before, and keeps the names that it had.
          have hold : g.classesOf file = names := by
            simp [Graph.classesOf, Table.getD, hfile, hnames]
          exact ⟨_, if_pos hfile, SortedSet.mem_insert.2 (Or.inr (hold.symm ▸ hmem))⟩
        · exact ⟨names, by rw [if_neg hfile, hnames], hmem⟩
  · intro f names hnames n hn
    rw [hdeclared] at hnames
    by_cases hfile : file = f
    · rw [if_pos hfile] at hnames
      cases hnames
      rcases SortedSet.mem_insert.1 hn with rfl | hn
      · exact hname
      · exact h.declared_simple (Restriction.declared_of_mem_classesOf hn) n hn
    · rw [if_neg hfile] at hnames
      exact h.declared_simple hnames n hn

theorem record (h : g.Filed) {f : Finding} (hf : f.WellNamed) : (g.record f).Filed := by
  cases f with
  | declares file name qualified => exact h.declares hf.1 hf.2
  | usesOnce source target label =>
    by_cases hl : label ∈ g.names source target
    · simpa [Graph.record, hl] using h
    · rw [Graph.record, if_neg hl]
      exact h.congr rfl rfl
  | _ => exact h.congr rfl rfl

/-- Findings with such names keep the classes filed. -/
theorem recordAll {findings : List Finding} (h : g.Filed) (hfs : ∀ f ∈ findings, f.WellNamed) :
    (g.recordAll findings).Filed :=
  List.foldlRecOn findings Graph.record h (fun _ hg f hf => hg.record (hfs f hf))

/-- The analysis keeps the classes filed. -/
theorem analyzed (h : g.Filed) (d : Disk) : (g.analyzed d).Filed := by
  have hdeclares : ∀ f ∈ g.foundDeclarations d, f.WellNamed := by
    intro f hf
    rcases mem_foundDeclarations.1 hf with ⟨e, -, name, hname, rfl⟩
    have hdot := not_dot_of_mem_declaredTypes hname
    exact ⟨Text.lastPart_of_not_mem hdot, lastPart_qualifiedName hdot⟩
  have hcalls : ∀ f ∈ (g.recordAll (g.foundDeclarations d)).foundCalls d, f.WellNamed := by
    intro f hf
    rcases List.mem_flatMap.1 hf with ⟨e, -, hf⟩
    rcases mem_callFindings hf with ⟨name, rfl⟩ | ⟨name, target, label, -, rfl⟩
    · trivial
    · trivial
  exact (h.recordAll hdeclares).recordAll hcalls

/-- The deeper analysis finds no further classes. -/
theorem deepened {g' : Graph} (h : g.Filed) (hext : g.Extends g') : g'.Filed := by
  rw [hext.frame]
  exact h.congr rfl rfl

end Graph.Filed

/-! ## Restrictions -/

namespace Restriction

theorem calls_keepEdge (g : Graph) (source target : SourcePath) (l : Labels) (r : Restriction) :
    (keepEdge g source target l r).calls =
      r.calls.alter source Table.empty (fun row => row.set target l) := by
  -- The classes of both files are kept without looking at the calls.
  have hkept : keepEdge g source target l r =
      (keepFile g target (keepFile g source r)).withCalls
        (r.calls.alter source Table.empty (fun row => row.set target l)) := by
    rw [← keepFile_withCalls, ← keepFile_withCalls]
    rfl
  rw [hkept]
  rfl

/-- What is kept of the labels of an edge: all of them, or a list of some. -/
inductive KeptOf (l : Labels) : Labels → Prop where
  | all : KeptOf l l
  | named {items named : List Value} (hitems : l.value.elements = .ok items)
      (hnamed : ∀ item ∈ named, item ∈ items) : KeptOf l ⟨.list named, none⟩

/-- Labels that are kept are some of those on the edge. -/
theorem keptOf_labelsKept {g : Graph} {chosen calls : NameSet} {source target : SourcePath}
    {l kept : Labels} (h : labelsKept g chosen calls source target l = .ok (some kept)) :
    KeptOf l kept := by
  unfold labelsKept at h
  split at h
  · cases h
    exact .all
  · rcases bind_eq_ok h with ⟨sourcePath, -, h⟩
    rcases bind_eq_ok h with ⟨targetPath, -, h⟩
    rcases bind_eq_ok h with ⟨items, hitems, h⟩
    dsimp only at h
    split at h
    · cases h
      exact .named hitems (fun item hitem => (List.mem_filter.1 hitem).1)
    · split at h
      · cases h
        exact .all
      · cases h

/-- A restriction keeps the chosen classes and then edges one by one, each with labels of an edge
between the same files. -/
theorem ofGraph_rule {P : Restriction → Prop} {g : Graph} {chosen calls : NameSet}
    (hstart : P (keepClasses g chosen))
    (hedge : ∀ {r source row target l kept}, (source, row) ∈ g.calls.entries →
      (target, l) ∈ row.entries → KeptOf l kept → P r → P (keepEdge g source target kept r))
    {r : Restriction} (h : ofGraph g chosen calls = .ok r) : P r := by
  -- Row by row, and in each row edge by edge; which files are chosen does not matter here.
  refine foldlM_keeps (fun e he r r' hr hvisit => ?_) hstart h
  rcases bind_eq_ok hvisit with ⟨chooses, -, hvisit⟩
  split at hvisit
  · refine foldlM_keeps (fun edge hmem r r' hr hvisit => ?_) hr hvisit
    rcases bind_eq_ok hvisit with ⟨chooses, -, hvisit⟩
    split at hvisit
    · rcases bind_eq_ok hvisit with ⟨labels?, hkept, hvisit⟩
      cases labels? with
      | none =>
        cases hvisit
        exact hr
      | some labels =>
        cases hvisit
        exact hedge he hmem (keptOf_labelsKept hkept) hr
    · cases hvisit
      exact hr
  · cases hvisit
    exact hr

/-- The calls that a restriction keeps are entered one by one, each with labels of an edge between
the same files. -/
theorem entered_ofGraph {P : Table SourcePath (Targets SourcePath) → Prop} (hempty : P Table.empty)
    {g : Graph} (henter : ∀ {t source row target l kept}, (source, row) ∈ g.calls.entries →
      (target, l) ∈ row.entries → KeptOf l kept → P t →
      P (t.alter source Table.empty (fun row => row.set target kept)))
    {chosen calls : NameSet} {r : Restriction} (h : ofGraph g chosen calls = .ok r) :
    P r.calls := by
  refine ofGraph_rule (P := fun r => P r.calls) ?_ (fun hrow hcell hkept hr => ?_) h
  · rw [keepClasses_calls]
    exact hempty
  · rw [calls_keepEdge]
    exact henter hrow hcell hkept hr

/-- The calls that a restriction keeps are entered one by one, each between files that are linked.
-/
theorem calls_ofGraph {P : Table SourcePath (Targets SourcePath) → Prop} (hempty : P Table.empty)
    {g : Graph} (henter : ∀ {t source target}, Linked g.calls source target → P t →
      ∀ l, P (t.alter source Table.empty (fun row => row.set target l)))
    {chosen calls : NameSet} {r : Restriction} (h : ofGraph g chosen calls = .ok r) : P r.calls :=
  entered_ofGraph hempty
    (fun hrow hedge _ ht => henter ⟨_, hrow, List.mem_map_of_mem hedge⟩ ht _) h

/-- The classes that a restriction keeps are entered one by one, each with the file of a class or of
an edge. -/
theorem classes_ofGraph {P : Table String SourcePath → Prop} (hempty : P Table.empty)
    {inside : SourcePath → Prop}
    (hset : ∀ {t file}, inside file → P t → ∀ name : String, P (t.set name file))
    {g : Graph} (hclasses : g.ClassesIn inside)
    (hcalls : ∀ {source target}, Linked g.calls source target → inside source ∧ inside target)
    {chosen calls : NameSet} {r : Restriction} (h : ofGraph g chosen calls = .ok r) :
    P r.classes := by
  have hfile : ∀ {file : SourcePath}, inside file → ∀ r : Restriction, P r.classes →
      P (keepFile g file r).classes := by
    intro file hinside r hr
    rw [keepFile_eq]
    refine List.foldlRecOn (motive := fun r : Restriction => P r.classes) _ _ hr
      (fun r hr name _ => ?_)
    unfold keepName
    split
    · exact hr
    · exact hset hinside hr name
  refine ofGraph_rule (P := fun r => P r.classes) ?_ (fun hrow hcell _ hr => ?_) h
  · rw [keepClasses_eq]
    refine List.foldlRecOn (motive := fun r : Restriction => P r.classes) _ _ hempty
      (fun r hr e he => ?_)
    unfold keepClass
    split
    · exact hset (hclasses e he) hr e.1
    · exact hr
  · rcases hcalls ⟨_, hrow, List.mem_map_of_mem hcell⟩ with ⟨hsource, htarget⟩
    exact hfile htarget _ (hfile hsource _ hr)

/-- A restriction keeps only edges that were there. -/
theorem sparser_ofGraph {g : Graph} {chosen calls : NameSet} {r : Restriction}
    (h : ofGraph g chosen calls = .ok r) : Sparser r.calls g.calls :=
  calls_ofGraph (P := fun t => Sparser t g.calls) Sparser.empty
    (fun hlinked ht l => ht.alter hlinked l) h

/-- What a restriction has kept: classes with their files, files with all their classes, and edges
of the graph. -/
structure Within (g : Graph) (r : Restriction) : Prop where
  class_declared : ∀ e ∈ r.classes.entries,
    ∃ names, r.declared.get? e.2 = some names ∧ Text.lastPart e.1 '.' ∈ names.toList
  declared : ∀ {file names}, r.declared.get? file = some names → g.declared.get? file = some names
  calls : Sparser r.calls g.calls

namespace Within

variable {g : Graph} {r r' : Restriction} {chosen calls : NameSet}

theorem empty : Within g {} := by
  refine ⟨fun e he => ?_, fun h => ?_, Sparser.empty⟩
  · cases he
  · cases h

/-- Listing a class with a file that declares it. -/
theorem add (h : Within g r) {name : String} {file : SourcePath} {names : NameSet}
    (hfile : g.declared.get? file = some names) (hname : Text.lastPart name '.' ∈ names.toList) :
    Within g { r with
      classes := r.classes.set name file
      declared := r.declared.set file names } := by
  refine ⟨fun e he => ?_, fun {f found} hget => ?_, h.calls⟩
  · rw [Table.get?_set]
    by_cases hf : file = e.2
    · refine ⟨names, by simp [hf], ?_⟩
      rcases Table.mem_set he with rfl | he
      · exact hname
      · -- Whatever was listed with this file before has the same names beside it.
        rcases h.class_declared e he with ⟨found, hfound, hmem⟩
        have hsame : some found = some names := by rw [← h.declared hfound, ← hf, hfile]
        exact Option.some.inj hsame ▸ hmem
    · rcases Table.mem_set he with rfl | he
      · exact absurd rfl hf
      · simpa [hf] using h.class_declared e he
  · rw [Table.get?_set] at hget
    by_cases hf : file = f
    · have hnames : names = found := by simpa [hf] using hget
      rw [← hf, hfile, hnames]
    · exact h.declared (by simpa [hf] using hget)

/-- The chosen classes of a graph lie within it. -/
theorem keepClasses (hg : g.Filed) (chosen : NameSet) : Within g (keepClasses g chosen) := by
  rw [keepClasses_eq]
  refine List.foldlRecOn g.classes.entries _ empty (fun r hr e he => ?_)
  rcases hg.class_declared e he with ⟨names, hfile, hname⟩
  unfold keepClass
  split
  · rw [hfile]
    exact hr.add hfile hname
  · exact hr

/-- A file that is kept lies within the graph, with its classes. -/
theorem keepFile (hg : g.Filed) (h : Within g r) (file : SourcePath) :
    Within g (keepFile g file r) := by
  rw [keepFile_eq]
  refine List.foldlRecOn (g.classesOf file).toList _ h (fun r hr name hname => ?_)
  -- Names are taken from the file itself, so they are their own last part.
  have hfile := declared_of_mem_classesOf hname
  unfold keepName
  split
  · exact hr
  · refine hr.add hfile ?_
    rw [hg.declared_simple hfile name hname]
    exact hname

/-- An edge that is kept lies within the graph, with its files. -/
theorem keepEdge (hg : g.Filed) (h : Within g r) {source target : SourcePath}
    (hlinked : Linked g.calls source target) (labels : Labels) :
    Within g (keepEdge g source target labels r) := by
  have hentered : Within g
      (r.withCalls (r.calls.alter source Table.empty (fun t => t.set target labels))) :=
    ⟨h.class_declared, h.declared, h.calls.alter hlinked labels⟩
  exact keepFile hg (keepFile hg hentered source) target

/-- The whole restriction lies within the graph. -/
theorem ofGraph (hg : g.Filed) (h : ofGraph g chosen calls = .ok r) : Within g r :=
  ofGraph_rule (keepClasses hg chosen)
    (fun hrow hcell _ hr => hr.keepEdge hg ⟨_, hrow, List.mem_map_of_mem hcell⟩ _) h

end Within

end Restriction

/-! ## Parts of a graph -/

namespace Graph

section

variable {names : List String} {calls kept : Table SourcePath (Targets SourcePath)}

/-- The reduced calls are entered one by one, each with some texts and between files that are
linked. -/
theorem entered_filterLabels {P : Table SourcePath (Targets SourcePath) → Prop}
    (hempty : P Table.empty) (henter : ∀ {t source target}, Linked calls source target → P t →
      ∀ texts, texts ≠ [] →
        P (t.alter source Table.empty (fun row => row.set target (Labels.ofNames texts))))
    (h : filterLabels names calls = .ok kept) : P kept := by
  -- Row by row, and in each row edge by edge.
  refine foldlM_keeps (fun e he t t' ht hrow => ?_) hempty h
  refine foldlM_keeps (fun edge hedge t t' ht hstep => ?_) ht hrow
  rcases bind_eq_ok hstep with ⟨texts, -, hstep⟩
  split at hstep
  · cases hstep
    exact ht
  · rename_i hsome
    cases hstep
    exact henter ⟨e.2, he, List.mem_map_of_mem hedge⟩ ht texts (by simpa using hsome)

/-- Filtering the labels adds no edge. -/
theorem sparser_filterLabels (h : filterLabels names calls = .ok kept) : Sparser kept calls :=
  entered_filterLabels (P := fun t => Sparser t calls) Sparser.empty
    (fun hlinked ht _ _ => ht.alter hlinked _) h

end

/-- Classes are listed with files that declare them, and all edges between files are edges of the
whole graph. -/
structure PartOf (g whole : Graph) : Prop where
  filed : g.Filed
  calls : Sparser g.calls whole.calls

namespace PartOf

variable {g g' whole : Graph}

/-- A part that is trimmed stays a part. -/
theorem trims (h : g.PartOf whole) (ht : g.Trims g') : g'.PartOf whole :=
  ⟨h.filed.congr ht.classes ht.declared, ht.calls.trans h.calls⟩

/-- A part that is restricted stays a part. -/
theorem restrict (h : g.PartOf whole) {chosen calls : NameSet}
    (hr : g.restrict chosen calls = .ok g') : g'.PartOf whole := by
  rcases bind_eq_ok hr with ⟨r, hkept, hr⟩
  cases hr
  have hwithin := Restriction.Within.ofGraph h.filed hkept
  refine ⟨⟨hwithin.class_declared, fun hget => ?_⟩, hwithin.calls.trans h.calls⟩
  exact h.filed.declared_simple (hwithin.declared hget)

end PartOf

end Graph

end JavaDeps
