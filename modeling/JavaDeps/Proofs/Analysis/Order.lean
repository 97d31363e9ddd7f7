import Mathlib.Data.List.Nodup
import JavaDeps.Proofs.Analysis.Sheets
import JavaDeps.Proofs.SortedSet

/-!
# The order of the files

The deep analysis visits the files of a directory in the order in which they are listed. If no name
is declared by two of them and no two have the same stem, this order does not show in what it finds.
-/

namespace JavaDeps

/-! ## Lists in another order -/

section

variable {α : Type}

/-- When all elements are equal, the last one is the same in any order. -/
theorem getLast?_eq_of_perm {xs ys : List α} (hperm : xs.Perm ys)
    (heq : ∀ x ∈ xs, ∀ y ∈ xs, x = y) : xs.getLast? = ys.getLast? := by
  cases hx : xs.getLast? with
  | none =>
    rw [List.getLast?_eq_none_iff] at hx
    rw [hx, List.nil_perm] at hperm
    rw [hperm]
    rfl
  | some x =>
    cases hy : ys.getLast? with
    | none =>
      rw [List.getLast?_eq_none_iff] at hy
      rw [hy, List.perm_nil] at hperm
      rw [hperm] at hx
      cases hx
    | some y =>
      have hxmem : x ∈ xs := List.mem_of_getLast? hx
      have hymem : y ∈ xs := hperm.mem_iff.2 (List.mem_of_getLast? hy)
      rw [heq x hxmem y hymem]

/-- When one element at most passes a test, it is found in any order. -/
theorem find?_eq_of_perm {xs ys : List α} {test : α → Bool} (hperm : xs.Perm ys)
    (heq : ∀ x ∈ xs, ∀ y ∈ xs, test x = true → test y = true → x = y) :
    xs.find? test = ys.find? test := by
  cases hx : xs.find? test with
  | none =>
    rw [List.find?_eq_none] at hx
    exact (List.find?_eq_none.2 (fun y hy => hx y (hperm.mem_iff.2 hy))).symm
  | some x =>
    have hxmem : x ∈ xs := List.mem_of_find?_eq_some hx
    have hxtest : test x = true := List.find?_some hx
    cases hy : ys.find? test with
    | none => exact absurd hxtest (List.find?_eq_none.1 hy x (hperm.mem_iff.1 hxmem))
    | some y =>
      have hymem : y ∈ xs := hperm.mem_iff.2 (List.mem_of_find?_eq_some hy)
      rw [heq x hxmem y hymem hxtest (List.find?_some hy)]

end

/-! ## Names that are apart -/

/-- No two files below a directory have the same stem, and no class and no interface is declared by
two of them. -/
structure Disk.NamesApart (d : Disk) (root : SourcePath) : Prop where
  stems : ((d.javaFiles root).map SourcePath.stem).Nodup
  classes : ∀ e ∈ d.sources root, ∀ e' ∈ d.sources root, ∀ name,
    name ∈ Java.declaredTypes e.2 → name ∈ Java.declaredTypes e'.2 → e.1 = e'.1
  interfaces : ∀ e ∈ d.sources root, ∀ e' ∈ d.sources root, ∀ name,
    name ∈ Java.declaredInterfaces e.2 → name ∈ Java.declaredInterfaces e'.2 → e.1 = e'.1

/-- Two disks list the same files below a directory, with the same texts. -/
structure Disk.SameFiles (d d' : Disk) (root : SourcePath) : Prop where
  files : (d'.javaFiles root).Perm (d.javaFiles root)
  texts : ∀ file ∈ d.javaFiles root, d'.text? file = d.text? file

namespace Disk

variable {d d' : Disk} {root : SourcePath}

/-- The readable files are the same, in another order. -/
theorem SameFiles.sources (h : d.SameFiles d' root) :
    (d'.sources root).Perm (d.sources root) := by
  have htexts : d'.readable (d'.javaFiles root) = d.readable (d'.javaFiles root) := by
    refine List.filterMap_congr (fun file hfile => ?_)
    rw [h.texts file (h.files.mem_iff.1 hfile)]
  rw [Disk.sources, htexts]
  exact h.files.filterMap _

/-- The readable files are among the listed ones, in the same order. -/
theorem files_readable_sublist (d : Disk) (files : List SourcePath) :
    ((d.readable files).map Prod.fst).Sublist files := by
  induction files with
  | nil => exact List.Sublist.refl _
  | cons file rest ih =>
    rw [readable_cons]
    cases d.text? file with
    | none => exact ih.cons file
    | some text => exact ih.cons_cons file

theorem NamesApart.sources_nodup (h : d.NamesApart root) :
    ((d.sources root).map Prod.fst).Nodup :=
  (files_readable_sublist d _).nodup (List.Nodup.of_map _ h.stems)

/-- The last file with a property is the same in both disks if no two files have it. -/
theorem SameFiles.last_file (hsame : d.SameFiles d' root) {p : SourcePath × List Char → Bool}
    (hone : ∀ e ∈ d.sources root, ∀ e' ∈ d.sources root, p e = true → p e' = true → e.1 = e'.1) :
    (((d'.sources root).filter p).map Prod.fst).getLast? =
      (((d.sources root).filter p).map Prod.fst).getLast? := by
  refine (getLast?_eq_of_perm ((hsame.sources.symm.filter _).map _) ?_).symm
  intro x hx y hy
  rcases List.mem_map.1 hx with ⟨e, he, rfl⟩
  rcases List.mem_map.1 hy with ⟨e', he', rfl⟩
  rw [List.mem_filter] at he he'
  exact hone e he.1 e' he'.1 he.2 he'.2

/-- The files that declare a name are found in any order. -/
theorem NamesApart.last_declarer (h : d.NamesApart root) (hsame : d.SameFiles d' root)
    (key : String) :
    (((d'.sources root).filter (fun e => Java.declares e.2 key)).map Prod.fst).getLast? =
      (((d.sources root).filter (fun e => Java.declares e.2 key)).map Prod.fst).getLast? :=
  hsame.last_file (fun e he e' he' hkey hkey' => h.classes e he e' he' _
    (lastPart_mem_declaredTypes hkey) (lastPart_mem_declaredTypes hkey'))

/-- Only one file declares an interface, so that the order of the files does not matter. -/
theorem NamesApart.last_interface (h : d.NamesApart root) (hsame : d.SameFiles d' root)
    (key : String) :
    (((d'.sources root).filter (fun e => (Java.declaredInterfaces e.2).contains key)).map
        Prod.fst).getLast? =
      (((d.sources root).filter (fun e => (Java.declaredInterfaces e.2).contains key)).map
        Prod.fst).getLast? :=
  hsame.last_file (fun e he e' he' hkey hkey' => h.interfaces e he e' he' key
    (List.contains_iff_mem.1 hkey) (List.contains_iff_mem.1 hkey'))

/-- Services are paired with their implementations in any order. -/
theorem NamesApart.serviceFindings_eq (h : d.NamesApart root) (hsame : d.SameFiles d' root) :
    serviceFindings (d'.javaFiles root) = serviceFindings (d.javaFiles root) := by
  have hinjective : ∀ x ∈ d.javaFiles root, ∀ y ∈ d.javaFiles root, x.stem = y.stem → x = y :=
    fun x hx y hy => List.inj_on_of_nodup_map h.stems hx hy
  have hfind : ∀ stem, (d'.javaFiles root).find? (fun f => f.stem == stem) =
      (d.javaFiles root).find? (fun f => f.stem == stem) := by
    intro stem
    refine (find?_eq_of_perm hsame.files.symm ?_).symm
    intro x hx y hy hstem hstem'
    rw [beq_iff_eq] at hstem hstem'
    exact hinjective x hx y hy (hstem.trans hstem'.symm)
  funext file text
  simp only [serviceFindings, hfind, hsame.files.any_eq]

end Disk

/-! ## Two runs -/

namespace Disk

/-- The project before the closer look of the deep analysis at the files of a directory. -/
def surveyed (d : Disk) (root : SourcePath) (hasStore : Bool) : Project :=
  (Project.fresh .deep hasStore root).surveyed (d.javaFiles root) (d.sources root)

/-- The project before the last phase of the deep analysis of a directory. -/
def examined (d : Disk) (root : SourcePath) (hasStore : Bool) : Project :=
  (d.surveyed root hasStore).round detailFindings (d.sources root)

def deepened (d : Disk) (root : SourcePath) (hasStore : Bool) : Project :=
  (d.examined root hasStore).recordAll
    (crossFindings (d.examined root hasStore).graph (d.examined root hasStore).facts)

section

variable (d : Disk) (root : SourcePath) (hasStore : Bool)

theorem deepened_eq : d.deepened root hasStore =
    (Project.fresh .deep hasStore root).deepened (d.javaFiles root) (d.sources root) := rfl

theorem index_examined_deepened :
    (d.examined root hasStore).index = (d.deepened root hasStore).index :=
  (Project.index_deepened _ (d.javaFiles root) (d.sources root)).symm

theorem index_surveyed_deepened :
    (d.surveyed root hasStore).index = (d.deepened root hasStore).index := by
  rw [← index_examined_deepened]
  exact (Project.index_round_details (d.surveyed root hasStore) (d.sources root)).symm

/-- The last phase finds no facts and no imports. -/
theorem facts_deepened :
    (d.deepened root hasStore).facts = (d.examined root hasStore).facts ∧
      (d.deepened root hasStore).graph.imports = (d.examined root hasStore).graph.imports := by
  have hkeeps : ∀ f ∈ crossFindings (d.examined root hasStore).graph
      (d.examined root hasStore).facts, ∀ q : Project,
      ((q.record f).facts, (q.record f).graph.imports) = (q.facts, q.graph.imports) := by
    intro f hf q
    rcases usesOnce_of_mem_crossFindings hf with ⟨source, target, label, rfl⟩
    by_cases hl : label ∈ q.graph.names source target <;>
      simp [Project.record, Graph.record, Facts.record, hl, Graph.setLabels]
  rw [Disk.deepened]
  exact Prod.mk.inj (Project.recordAll_keeps (fun p => (p.facts, p.graph.imports)) _ hkeeps)

end

end Disk

section

variable {d d' : Disk} {root : SourcePath} (hapart : d.NamesApart root)
  (hsame : d.SameFiles d' root) (hasStore hasStore' : Bool)

include hapart hsame

/-- The order of the files does not matter to where a class is listed. -/
theorem get?_classes_order :
    (d'.deepened root hasStore').graph.classes.get? =
      (d.deepened root hasStore).graph.classes.get? := by
  funext key
  rw [Disk.deepened_eq, Disk.deepened_eq, get?_classes_fresh, get?_classes_fresh,
    hapart.last_declarer hsame]

/-- The order of the files does not matter to where an interface is listed. -/
theorem get?_interfaces_order :
    (d'.deepened root hasStore').facts.interfaces.get? =
      (d.deepened root hasStore).facts.interfaces.get? := by
  funext key
  rw [Disk.deepened_eq, Disk.deepened_eq, get?_interfaces_fresh, get?_interfaces_fresh,
    hapart.last_interface hsame]

/-- The classes that implement an interface come in another order, but their set is the same. -/
theorem get?_implementations_order :
    (d'.deepened root hasStore').facts.implementations.get? =
      (d.deepened root hasStore).facts.implementations.get? := by
  funext key
  have hperm : ((d'.sources root).flatMap (fun e => Java.implementing e.2 key)).Perm
      ((d.sources root).flatMap (fun e => Java.implementing e.2 key)) :=
    hsame.sources.flatMap_right _
  have hnil : ((d'.sources root).flatMap (fun e => Java.implementing e.2 key) = []) ↔
      ((d.sources root).flatMap (fun e => Java.implementing e.2 key) = []) := by
    rw [← List.length_eq_zero_iff, hperm.length_eq, List.length_eq_zero_iff]
  rw [Disk.deepened_eq, Disk.deepened_eq, get?_implementations_fresh, get?_implementations_fresh,
    hapart.last_interface hsame]
  split
  · simp only [insertedInto, SortedSet.insertAll_perm hperm, hnil]
  · rfl

/-- Before the closer look, the same is kept of every file. -/
theorem sheet_surveyed (file : SourcePath) :
    (d'.surveyed root hasStore').sheet file = (d.surveyed root hasStore).sheet file := by
  have hperm := hsame.sources
  have hnodup := hapart.sources_nodup
  have hindex := index_fresh_deepened .deep hasStore root (d.javaFiles root) (d.sources root)
  have hindex' := index_fresh_deepened .deep hasStore' root (d'.javaFiles root) (d'.sources root)
  simp only [Project.index, Prod.mk.injEq] at hindex hindex'
  -- What a round reads by name is written by earlier rounds and stays until the end.
  have hclasses := get?_classes_order hapart hsame hasStore hasStore'
  have hinterfaces := get?_interfaces_order hapart hsame hasStore hasStore'
  rw [Disk.deepened_eq, Disk.deepened_eq, hindex.1, hindex'.1] at hclasses
  rw [Disk.deepened_eq, Disk.deepened_eq, hindex.2.1, hindex'.2.1] at hinterfaces
  have hdeclared := localRound_declarations.sheet_round_perm hperm hnodup rfl
    (q := Project.fresh .deep hasStore' root) (p := Project.fresh .deep hasStore root)
    (fun _ => rfl)
  have hcalled := localRound_calls.sheet_round_perm hperm hnodup hclasses hdeclared
  have hknown := localRound_interfaces.sheet_round_perm hperm hnodup rfl hcalled
  have hclaimed := localRound_clauses.sheet_round_perm hperm hnodup hinterfaces hknown
  have hserved := (localRound_services (d.javaFiles root)).sheet_round_perm hperm hnodup rfl
    hclaimed
  simp only [Disk.surveyed, Project.surveyed, hapart.serviceFindings_eq hsame]
  exact hserved file

/-- Before the last phase, the same is kept of every file. -/
theorem sheet_examined (file : SourcePath) :
    (d'.examined root hasStore').sheet file = (d.examined root hasStore).sheet file := by
  -- The names that the closer look reads are those of the results.
  have hresolves : (d'.surveyed root hasStore').resolves = (d.surveyed root hasStore).resolves := by
    rw [Project.resolves_of_index (Disk.index_surveyed_deepened d root hasStore),
      Project.resolves_of_index (Disk.index_surveyed_deepened d' root hasStore')]
    exact Project.resolves_eq (get?_classes_order hapart hsame hasStore hasStore')
      (get?_implementations_order hapart hsame hasStore hasStore')
  exact localRound_details.sheet_round_perm hsame.sources hapart.sources_nodup hresolves
    (sheet_surveyed hapart hsame hasStore hasStore') file

/-- The last phase enters the same links in both orders. -/
theorem mem_crossFindings_order (finding : Finding) :
    finding ∈ crossFindings (d'.examined root hasStore').graph (d'.examined root hasStore').facts ↔
      finding ∈ crossFindings (d.examined root hasStore).graph
        (d.examined root hasStore).facts := by
  have hindex := Disk.index_examined_deepened d root hasStore
  have hindex' := Disk.index_examined_deepened d' root hasStore'
  simp only [Project.index, Prod.mk.injEq] at hindex hindex'
  rw [mem_crossFindings_iff, mem_crossFindings_iff]
  simp only [Table.getD, hindex.1, hindex.2.1, hindex.2.2, hindex'.1, hindex'.2.1, hindex'.2.2,
    get?_classes_order hapart hsame hasStore hasStore',
    get?_interfaces_order hapart hsame hasStore hasStore',
    get?_implementations_order hapart hsame hasStore hasStore']

/-- The labels of every edge are the same, if maybe in another order. -/
theorem names_order (source target : SourcePath) :
    ((d'.deepened root hasStore').graph.names source target).Perm
      ((d.deepened root hasStore).graph.names source target) := by
  have hbefore : (d'.examined root hasStore').graph.names source target =
      (d.examined root hasStore).graph.names source target :=
    (Project.kept_of_sheet (sheet_examined hapart hsame hasStore hasStore' source)).2.1 target
  -- The last phase visits the interfaces in different orders, so the labels are counted.
  refine List.perm_iff_count.2 (fun label => ?_)
  rw [Disk.deepened, Disk.deepened, Project.graph_recordAll, Project.graph_recordAll,
    Graph.count_names_recordAll uses_not_mem_crossFindings,
    Graph.count_names_recordAll uses_not_mem_crossFindings, hbefore]
  simp only [mem_crossFindings_order hapart hsame hasStore hasStore']

end

/-- The deep analysis does not depend on the order in which the files of a directory are listed, if
no two of them have the same stem and no two declare a class or an interface of the same name. From
two listings of the same files it finds the same classes, interfaces, implementations, imports and
types of fields; the calls in conditions and chains are the same, and every edge carries the same
labels, as often as in the other order. -/
theorem deep_analysis_order (root : String) (s s' : Session)
    (hsame : s.disk.SameFiles s'.disk (SourcePath.ofText root))
    (hapart : s.disk.NamesApart (SourcePath.ofText root)) :
    ∃ t t', (do openProject .deep root; analyze : Action Unit) s = (.ok (), t) ∧
      (do openProject .deep root; analyze : Action Unit) s' = (.ok (), t') ∧
      (∀ name, t'.project.graph.classes.get? name = t.project.graph.classes.get? name) ∧
      (∀ name, t'.project.facts.interfaces.get? name = t.project.facts.interfaces.get? name) ∧
      (∀ name, t'.project.facts.implementations.get? name =
        t.project.facts.implementations.get? name) ∧
      (∀ file, t'.project.graph.imports.get? file = t.project.graph.imports.get? file) ∧
      (∀ file, t'.project.facts.fieldTypes.get? file = t.project.facts.fieldTypes.get? file) ∧
      (∀ source, t'.project.facts.conditionCalls.get? source =
        t.project.facts.conditionCalls.get? source) ∧
      (∀ source, t'.project.facts.chainedCalls.get? source =
        t.project.facts.chainedCalls.get? source) ∧
      ∀ source target, ∃ names names',
        t.project.graph.labels source target = Labels.ofNames names ∧
        t'.project.graph.labels source target = Labels.ofNames names' ∧ names'.Perm names := by
  rcases @openProject_analyze_arrives .deep (by decide) root s with
    ⟨_, t, hrun, hregular, hasStore, hproject⟩
  rcases @openProject_analyze_arrives .deep (by decide) root s' with
    ⟨_, t', hrun', hregular', hasStore', hproject'⟩
  rw [← Disk.deepened_eq] at hproject hproject'
  have hkept := fun file =>
    Project.kept_of_sheet (sheet_examined hapart hsame hasStore hasStore' file)
  -- Imports and facts are as before the last phase, and read off the sheets.
  rcases s.disk.facts_deepened (SourcePath.ofText root) hasStore with ⟨hfacts, himports⟩
  rcases s'.disk.facts_deepened (SourcePath.ofText root) hasStore' with ⟨hfacts', himports'⟩
  refine ⟨t, t', hrun, hrun', ?_, ?_, ?_, ?_, ?_, ?_, ?_, fun source target => ?_⟩
  · rw [hproject, hproject']
    exact fun name => congrFun (get?_classes_order hapart hsame hasStore hasStore') name
  · rw [hproject, hproject']
    exact fun name => congrFun (get?_interfaces_order hapart hsame hasStore hasStore') name
  · rw [hproject, hproject']
    exact fun name => congrFun (get?_implementations_order hapart hsame hasStore hasStore') name
  · rw [hproject, hproject', himports, himports']
    exact fun file => (hkept file).1
  · rw [hproject, hproject', hfacts, hfacts']
    exact fun file => (hkept file).2.2.1
  · rw [hproject, hproject', hfacts, hfacts']
    exact fun source => (hkept source).2.2.2.1
  · rw [hproject, hproject', hfacts, hfacts']
    exact fun source => (hkept source).2.2.2.2
  · refine ⟨_, _, hregular.graph.calls_in.labels source target,
      hregular'.graph.calls_in.labels source target, ?_⟩
    rw [hproject, hproject']
    exact names_order hapart hsame hasStore hasStore' source target

/-! ## Two files in both orders -/

def loadText : String := "interface I \x7b boolean ready(); \x7d"

/-- A file with a class that implements the interface and calls it in a condition. -/
def checkText :
    String := "class C implements I \x7b I i; void f() \x7b if (i.ready()) g(); \x7d \x7d"

def interfaceFirst : Disk :=
  ((default : Disk).put (SourcePath.ofText "I.java") (.text loadText)).put
    (SourcePath.ofText "C.java") (.text checkText)

def classFirst : Disk :=
  ((default : Disk).put (SourcePath.ofText "C.java") (.text checkText)).put
    (SourcePath.ofText "I.java") (.text loadText)

theorem sources_interfaceFirst : interfaceFirst.sources (SourcePath.ofText ".") =
    [(⟨"", ["I.java"]⟩, loadText.toList), (⟨"", ["C.java"]⟩, checkText.toList)] := by
  decide +kernel

theorem sources_classFirst : classFirst.sources (SourcePath.ofText ".") =
    [(⟨"", ["C.java"]⟩, checkText.toList), (⟨"", ["I.java"]⟩, loadText.toList)] := by
  decide +kernel

theorem sameFiles_classFirst : interfaceFirst.SameFiles classFirst (SourcePath.ofText ".") := by
  have hfiles : interfaceFirst.javaFiles (SourcePath.ofText ".") =
      [⟨"", ["I.java"]⟩, ⟨"", ["C.java"]⟩] := rfl
  refine ⟨List.Perm.swap _ _ _, fun file hfile => ?_⟩
  -- A file has the text that it is listed with.
  have htext : ∀ e ∈ interfaceFirst.sources (SourcePath.ofText "."),
      classFirst.text? e.1 = interfaceFirst.text? e.1 := by
    intro e he
    have he' : e ∈ classFirst.sources (SourcePath.ofText ".") := by
      rw [sources_interfaceFirst] at he
      rw [sources_classFirst]
      exact (List.Perm.swap _ _ _).mem_iff.1 he
    exact (Disk.mem_readable.1 he').2.trans (Disk.mem_readable.1 he).2.symm
  rw [sources_interfaceFirst] at htext
  rw [hfiles] at hfile
  simp only [List.mem_cons, List.not_mem_nil, or_false] at hfile
  rcases hfile with rfl | rfl
  · exact htext (⟨"", ["I.java"]⟩, loadText.toList) List.mem_cons_self
  · exact htext (⟨"", ["C.java"]⟩, checkText.toList) (List.mem_cons_of_mem _ List.mem_cons_self)

theorem namesApart_interfaceFirst : interfaceFirst.NamesApart (SourcePath.ofText ".") := by
  have htypes : Java.declaredTypes loadText.toList = ["I"] := rfl
  have htypes' : Java.declaredTypes checkText.toList = ["C"] := rfl
  have hinterfaces : Java.declaredInterfaces checkText.toList = [] := rfl
  refine ⟨by decide, ?_, ?_⟩
  · rw [sources_interfaceFirst]
    simp only [List.mem_cons, List.not_mem_nil, or_false]
    rintro e (rfl | rfl) e' (rfl | rfl) name hname hname'
    · rfl
    · rw [htypes] at hname
      rw [htypes', List.mem_singleton.1 hname] at hname'
      exact absurd hname' (by decide)
    · rw [htypes'] at hname
      rw [htypes, List.mem_singleton.1 hname] at hname'
      exact absurd hname' (by decide)
    · rfl
  · rw [sources_interfaceFirst]
    simp only [List.mem_cons, List.not_mem_nil, or_false]
    rintro e (rfl | rfl) e' (rfl | rfl) name hname hname'
    · rfl
    · rw [hinterfaces] at hname'
      cases hname'
    · rw [hinterfaces] at hname
      cases hname
    · rfl

/-- Listing the class first finds the same as listing the interface first. -/
theorem deep_analysis_order_classFirst :
    interfaceFirst.SameFiles classFirst (SourcePath.ofText ".") ∧
      interfaceFirst.NamesApart (SourcePath.ofText ".") ∧
      ∃ t t', (do openProject .deep "."; analyze : Action Unit) (Session.ofDisk interfaceFirst) =
          (.ok (), t) ∧
        (do openProject .deep "."; analyze : Action Unit) (Session.ofDisk classFirst) =
          (.ok (), t') ∧
        ∀ name, t'.project.facts.implementations.get? name =
          t.project.facts.implementations.get? name := by
  refine ⟨sameFiles_classFirst, namesApart_interfaceFirst, ?_⟩
  rcases deep_analysis_order "." (Session.ofDisk interfaceFirst) (Session.ofDisk classFirst)
    sameFiles_classFirst namesApart_interfaceFirst with ⟨t, t', hrun, hrun', -, -, himpl, -⟩
  exact ⟨t, t', hrun, hrun', himpl⟩

end JavaDeps
