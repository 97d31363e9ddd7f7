import Mathlib.Data.List.Nodup
import JavaDeps.Proofs.Analysis.Resolution

/-!
# Files that are added

The plain analysis resolves names with one table for all files, so a further file could change what
the calls of the others are taken for. It does not, as long as no other file declares one of its
classes: between the other files everything is as before.
-/

namespace JavaDeps

/-! ## Two listings -/

/-- A directory lists one file more on another disk, somewhere among the files that were there
before and have the same texts. -/
structure Disk.Gains (d d' : Disk) (root added : SourcePath) : Prop where
  files : ∃ before after, d.javaFiles root = before ++ after ∧
    d'.javaFiles root = before ++ added :: after
  texts : ∀ file ∈ d.javaFiles root, d'.text? file = d.text? file

/-- None of the classes that a file of another disk declares is declared below a directory. -/
def Disk.NamesNew (d d' : Disk) (root added : SourcePath) : Prop :=
  ∀ text, d'.text? added = some text → ∀ name ∈ Java.declaredTypes text,
    ∀ e ∈ d.sources root, name ∉ Java.declaredTypes e.2

namespace Disk

variable {d d' : Disk} {root added : SourcePath}

/-- The new file stands somewhere among the readable files. -/
theorem Gains.sources (h : d.Gains d' root added) :
    ∃ first rest, d.sources root = first ++ rest ∧
      d'.sources root = first ++ (d'.readable [added] ++ rest) := by
  rcases h.files with ⟨before, after, hfiles, hfiles'⟩
  have htexts : ∀ files, (∀ file ∈ files, file ∈ d.javaFiles root) →
      d'.readable files = d.readable files := by
    intro files hmem
    refine List.filterMap_congr (fun file hfile => ?_)
    rw [h.texts file (hmem file hfile)]
  have hbefore : d'.readable before = d.readable before :=
    htexts before (fun file hfile => by rw [hfiles]; exact List.mem_append_left after hfile)
  have hafter : d'.readable after = d.readable after :=
    htexts after (fun file hfile => by rw [hfiles]; exact List.mem_append_right before hfile)
  refine ⟨d.readable before, d.readable after, ?_, ?_⟩
  · rw [Disk.sources, hfiles, readable, List.filterMap_append]
    rfl
  · rw [Disk.sources, hfiles', ← hbefore, ← hafter]
    simp only [readable, ← List.filterMap_append, List.singleton_append]

/-- A simple name stands for the same file as before, unless it is a name of the added file; then
it stood for none. -/
theorem Gains.getLast?_declarers (h : d.Gains d' root added) (hnew : d.NamesNew d' root added)
    (name : String) :
    (d'.declarers root name).getLast? = (d.declarers root name).getLast? ∨
      (d'.declarers root name).getLast? = some added ∧ (d.declarers root name).getLast? = none := by
  rcases h.sources with ⟨first, rest, hsources, hsources'⟩
  cases htext : d'.text? added with
  | none =>
    have hnone : d'.readable [added] = [] := by simp [readable, htext]
    refine Or.inl ?_
    rw [declarers, declarers, hsources', hsources, hnone, List.nil_append]
  | some text =>
    have hone : d'.readable [added] = [(added, text)] := by simp [readable, htext]
    by_cases hname : name ∈ Java.declaredTypes text
    · -- Only the added file declares the name.
      have hnone : ∀ e ∈ first ++ rest, ¬ (Java.declaredTypes e.2).contains name = true := by
        intro e he hmem
        rw [← hsources] at he
        exact hnew text htext name hname e he (List.contains_iff_mem.1 hmem)
      have hfirst : first.filter (fun e => (Java.declaredTypes e.2).contains name) = [] :=
        List.filter_eq_nil_iff.2 (fun e he => hnone e (List.mem_append_left rest he))
      have hrest : rest.filter (fun e => (Java.declaredTypes e.2).contains name) = [] :=
        List.filter_eq_nil_iff.2 (fun e he => hnone e (List.mem_append_right first he))
      refine Or.inr ⟨?_, ?_⟩
      · rw [declarers, hsources', hone, List.filter_append, List.filter_append, hfirst, hrest]
        simp [hname]
      · rw [declarers, hsources, List.filter_append, hfirst, hrest]
        rfl
    · refine Or.inl ?_
      rw [declarers, declarers, hsources', hsources, hone]
      simp [List.filter_append, hname]

end Disk

/-! ## Labels in order -/

/-- The labels of an edge after findings none of which looks at what is there. -/
theorem Graph.names_recordAll_uses {findings : List Finding}
    (h : ∀ f ∈ findings, ∀ source target label, f ≠ .usesOnce source target label) (g : Graph)
    (source target : SourcePath) :
    (g.recordAll findings).names source target =
      g.names source target ++ findings.flatMap (Finding.labelsFor [] source target) := by
  induction findings generalizing g with
  | nil => simp
  | cons f rest ih =>
    have hstep : f.labelsFor (g.names source target) source target =
        f.labelsFor [] source target := by
      cases f with
      | usesOnce s t label => exact absurd rfl (h _ List.mem_cons_self s t label)
      | _ => rfl
    have hrest := ih (fun f' hf' => h f' (List.mem_cons_of_mem f hf')) (g.record f)
    rw [recordAll_cons, hrest, names_record, hstep, List.flatMap_cons, List.append_assoc]

def Graph.labelsOfUse (g : Graph) (source target file : SourcePath) (className label : String) :
    List String :=
  ((usesClass g file className label).map (Finding.labelsFor [] source target)).getD []

def Graph.labelsOfText (g : Graph) (source target file : SourcePath) (text : List Char) :
    List String :=
  (callFindings g file text).flatMap (Finding.labelsFor [] source target)

theorem flatMap_filterMap {α β γ : Type} (h : α → Option β) (f : β → List γ) (xs : List α) :
    (xs.filterMap h).flatMap f = xs.flatMap (fun x => ((h x).map f).getD []) := by
  induction xs with
  | nil => rfl
  | cons x rest ih => cases hx : h x <;> simp [hx, ih]

/-- The labels of a text, kind of call by kind of call. -/
theorem Graph.labelsOfText_eq (g : Graph) (source target file : SourcePath) (text : List Char) :
    g.labelsOfText source target file text =
      (Java.memberCalls (Java.clean text)).flatMap
          (fun c => g.labelsOfUse source target file c.1 c.2) ++
        (Java.serviceCalls (Java.clean text)).flatMap
          (fun c => g.labelsOfUse source target file (Java.serviceType c.1) c.2) ++
        (Java.creations (Java.clean text)).flatMap
          (fun c => g.labelsOfUse source target file c ("new " ++ c ++ "()")) := by
  have himports : ((Java.importedNames text).map (Finding.imports file)).flatMap
      (Finding.labelsFor [] source target) = [] := by
    simp [List.flatMap_map, Finding.labelsFor]
  simp only [labelsOfText, callFindings, List.flatMap_append, himports, List.nil_append,
    flatMap_filterMap]
  rfl

/-- The text of a file brings labels to edges from this file only. -/
theorem Graph.labelsOfText_other (g : Graph) {source target file : SourcePath}
    (h : file ≠ source) (text : List Char) : g.labelsOfText source target file text = [] := by
  refine List.flatMap_eq_nil_iff.2 (fun f hf => ?_)
  rcases mem_callFindings hf with ⟨_, rfl⟩ | ⟨_, _, _, _, rfl⟩
  · rfl
  · simp [Finding.labelsFor, h]

/-- The labels on an edge are those that the texts bring to it, file by file. -/
theorem names_analyzed (root : SourcePath) (d : Disk) (source target : SourcePath) :
    ((Graph.ofRoot root).analyzed d).names source target =
      (d.sources root).flatMap (fun e =>
        ((Graph.ofRoot root).analyzed d).labelsOfText source target e.1 e.2) := by
  -- Between the two rounds there are no edges yet, and the classes are final.
  let g := (Graph.ofRoot root).recordAll ((Graph.ofRoot root).foundDeclarations d)
  have hroot : g.root = root := Graph.root_recordAll _ _
  have hbefore : g.names source target = [] := by
    have hdeclares : ∀ f ∈ (Graph.ofRoot root).foundDeclarations d,
        ∃ file name qualified, f = .declares file name qualified := by
      intro f hf
      rcases mem_foundDeclarations.1 hf with ⟨e, -, name, -, rfl⟩
      exact ⟨_, _, _, rfl⟩
    have hnone : ((Graph.ofRoot root).foundDeclarations d).flatMap
        (Finding.labelsFor [] source target) = [] := by
      refine List.flatMap_eq_nil_iff.2 (fun f hf => ?_)
      rcases hdeclares f hf with ⟨_, _, _, rfl⟩
      rfl
    have hplain : ∀ f ∈ (Graph.ofRoot root).foundDeclarations d,
        ∀ s t label, f ≠ .usesOnce s t label := by
      intro f hf s t label heq
      rcases hdeclares f hf with ⟨_, _, _, rfl⟩
      cases heq
    show ((Graph.ofRoot root).recordAll _).names source target = []
    rw [Graph.names_recordAll_uses hplain, hnone]
    rfl
  have hplain : ∀ f ∈ g.foundCalls d, ∀ s t label, f ≠ .usesOnce s t label := by
    intro f hf s t label heq
    rcases List.mem_flatMap.1 hf with ⟨e, -, hfe⟩
    rcases mem_callFindings hfe with ⟨_, rfl⟩ | ⟨_, _, _, _, rfl⟩ <;> cases heq
  have hclasses : g.classes = ((Graph.ofRoot root).analyzed d).classes :=
    (classes_analyzed d (Graph.ofRoot root)).symm
  have hanalyzed : (Graph.ofRoot root).analyzed d = g.recordAll (g.foundCalls d) := rfl
  calc ((Graph.ofRoot root).analyzed d).names source target
      = (g.foundCalls d).flatMap (Finding.labelsFor [] source target) := by
        rw [hanalyzed, Graph.names_recordAll_uses hplain, hbefore, List.nil_append]
    _ = (d.sources root).flatMap (fun e => g.labelsOfText source target e.1 e.2) := by
        rw [Graph.foundCalls, hroot, List.flatMap_assoc]
        rfl
    _ = _ := by
        simp only [Graph.labelsOfText, callFindings_congr hclasses]

/-! ## Names without dots -/

/-- The receiver of a call is a name of one part. -/
theorem not_dot_of_mem_memberCalls {text : List Char} {c : String × String}
    (h : c ∈ Java.memberCalls text) : '.' ∉ c.1.toList := by
  rcases (Pattern.reads_captures2 rfl rfl h).1 with hreceiver | hreceiver
  · exact not_dot_of_isName (fun _ => Java.isNameChar_of_isCapital) (Java.reads_name.1 hreceiver)
  · exact not_dot_of_isName (fun _ => Java.isNameChar_of_isSmall) (Java.reads_name.1 hreceiver)

/-- A created type is written without a dot. -/
theorem not_dot_of_mem_creations {text : List Char} {type : String}
    (h : type ∈ Java.creations text) : '.' ∉ type.toList :=
  not_dot_of_isName (fun _ => Java.isNameChar_of_isCapital)
    (Java.reads_name.1 (Pattern.reads_captures1 rfl rfl h))

/-- A name with a given ending is a name. -/
theorem isName_of_reads_nameEndingWith {ending : String} {text : List Char}
    (hending : ∀ c ∈ ending.toList, Java.isNameChar c = true)
    (h : (Java.nameEndingWith ending).Reads text) : Java.IsName Java.isSmall text := by
  rcases h with ⟨start, _, rfl, hstart, hlast⟩
  rcases Java.reads_name.1 hstart with ⟨x, rest, rfl, hx, hrest⟩
  rw [Pattern.reads_literal.1 hlast]
  refine ⟨x, rest ++ ending.toList, rfl, hx, fun y hy => ?_⟩
  rcases List.mem_append.1 hy with hy | hy
  · exact hrest y hy
  · exact hending y hy

theorem isName_of_mem_serviceCalls_fst {text : List Char} {c : String × String}
    (h : c ∈ Java.serviceCalls text) : Java.IsName Java.isSmall c.1.toList := by
  rcases (Pattern.reads_captures2 rfl rfl h).1 with hreceiver | hreceiver
  · exact isName_of_reads_nameEndingWith (List.all_eq_true.1 (by decide)) hreceiver
  · exact isName_of_reads_nameEndingWith (List.all_eq_true.1 (by decide)) hreceiver

/-- The type that a service variable is named after is a name of one part. -/
theorem not_dot_of_mem_serviceCalls {text : List Char} {c : String × String}
    (h : c ∈ Java.serviceCalls text) : '.' ∉ (Java.serviceType c.1).toList := by
  rcases isName_of_mem_serviceCalls_fst h with ⟨x, rest, hname, hx, hrest⟩
  rw [Java.serviceType, String.toList_ofList, hname, Java.capitalize, if_pos hx]
  intro hmem
  rcases List.mem_cons.1 hmem with heq | hmem
  · have hrange : 97 ≤ x.toNat ∧ x.toNat ≤ 122 := by simpa [Java.isSmall] using hx
    have hvalid : (x.toNat - 32).isValidChar := Or.inl (by omega)
    have hcode : (Char.ofNat (x.toNat - 32)).toNat = x.toNat - 32 := by
      rw [Char.ofNat, dif_pos hvalid]
      rfl
    rw [← heq] at hcode
    have hdot : '.'.toNat = 46 := rfl
    omega
  · exact not_dot_of_isNameChar (hrest '.' hmem) rfl

/-! ## Two analyses -/

section

variable {d d' : Disk} {root added : SourcePath} (hgains : d.Gains d' root added)
  (hnew : d.NamesNew d' root added)

include hgains hnew

/-- A use brings the same labels to an edge that does not lead to the added file. -/
theorem labelsOfUse_gains {target : SourcePath} (htarget : target ≠ added)
    (source file : SourcePath) {className : String} (hdot : '.' ∉ className.toList)
    (label : String) :
    ((Graph.ofRoot root).analyzed d').labelsOfUse source target file className label =
      ((Graph.ofRoot root).analyzed d).labelsOfUse source target file className label := by
  have hclass := get?_classes_simple root d hdot
  have hclass' := get?_classes_simple root d' hdot
  rcases hgains.getLast?_declarers hnew className with hsame | ⟨hadded, hnone⟩
  · simp only [Graph.labelsOfUse, usesClass, Graph.otherFile?, hclass, hclass', hsame]
  · -- The class was unknown before, and a use of it leads to the added file now.
    have hbefore : ((Graph.ofRoot root).analyzed d).otherFile? file className = none := by
      simp [Graph.otherFile?, hclass, hnone]
    have hafter : ∀ found, ((Graph.ofRoot root).analyzed d').otherFile? file className =
        some found →
        found = added := by
      intro found hfound
      have hget := (Graph.otherFile?_eq_some.1 hfound).1
      rw [hclass', hadded] at hget
      exact (Option.some.inj hget).symm
    rw [Graph.labelsOfUse, Graph.labelsOfUse, usesClass, usesClass, hbefore]
    cases hfound : ((Graph.ofRoot root).analyzed d').otherFile? file className with
    | none => rfl
    | some found =>
      rw [hafter found hfound]
      simp [Finding.labelsFor, htarget.symm]

/-- A text brings the same labels to an edge, unless the edge ends at the new file. -/
theorem labelsOfText_gains {target : SourcePath} (htarget : target ≠ added)
    (source file : SourcePath) (text : List Char) :
    ((Graph.ofRoot root).analyzed d').labelsOfText source target file text =
      ((Graph.ofRoot root).analyzed d).labelsOfText source target file text := by
  have huse := fun {className : String} (hdot : '.' ∉ className.toList) =>
    labelsOfUse_gains hgains hnew htarget source file hdot
  have hmember : (Java.memberCalls (Java.clean text)).flatMap (fun c =>
        ((Graph.ofRoot root).analyzed d').labelsOfUse source target file c.1 c.2) =
      (Java.memberCalls (Java.clean text)).flatMap (fun c =>
        ((Graph.ofRoot root).analyzed d).labelsOfUse source target file c.1 c.2) :=
    List.flatMap_congr (fun c hc => huse (not_dot_of_mem_memberCalls hc) c.2)
  have hservice : (Java.serviceCalls (Java.clean text)).flatMap (fun c =>
        ((Graph.ofRoot root).analyzed d').labelsOfUse source target file
          (Java.serviceType c.1) c.2) =
      (Java.serviceCalls (Java.clean text)).flatMap (fun c =>
        ((Graph.ofRoot root).analyzed d).labelsOfUse source target file
          (Java.serviceType c.1) c.2) :=
    List.flatMap_congr (fun c hc => huse (not_dot_of_mem_serviceCalls hc) c.2)
  have hcreation : (Java.creations (Java.clean text)).flatMap (fun c =>
        ((Graph.ofRoot root).analyzed d').labelsOfUse source target file c ("new " ++ c ++ "()")) =
      (Java.creations (Java.clean text)).flatMap (fun c =>
        ((Graph.ofRoot root).analyzed d).labelsOfUse source target file c ("new " ++ c ++ "()")) :=
    List.flatMap_congr (fun c hc => huse (not_dot_of_mem_creations hc) _)
  rw [Graph.labelsOfText_eq, Graph.labelsOfText_eq, hmember, hservice, hcreation]

/-- Edges between the old files keep their labels. -/
theorem names_gains {source target : SourcePath} (hsource : source ≠ added)
    (htarget : target ≠ added) :
    ((Graph.ofRoot root).analyzed d').names source target =
      ((Graph.ofRoot root).analyzed d).names source target := by
  rcases hgains.sources with ⟨first, rest, hsources, hsources'⟩
  -- The text of the added file brings labels to its own edges only.
  have hadded : (d'.readable [added]).flatMap (fun e =>
      ((Graph.ofRoot root).analyzed d').labelsOfText source target e.1 e.2) = [] := by
    refine List.flatMap_eq_nil_iff.2 (fun e he => ?_)
    have hfile : e.1 = added := List.mem_singleton.1 (Disk.mem_readable.1 he).1
    exact Graph.labelsOfText_other _ (fun h => hsource (h.symm.trans hfile)) e.2
  rw [names_analyzed, names_analyzed, hsources, hsources', List.flatMap_append,
    List.flatMap_append, hadded, List.nil_append, ← List.flatMap_append]
  simp only [labelsOfText_gains hgains hnew htarget]

end

/-- In a table of calls as an analysis builds it, the edges are those that carry labels. -/
theorem CallsIn.edge?_eq {inside : SourcePath → Prop} {g : Graph} (h : CallsIn inside g.calls)
    (source target : SourcePath) :
    g.edge? source target =
      if g.names source target = [] then none
      else some (Labels.ofNames (g.names source target)) := by
  cases hedge : g.edge? source target with
  | none =>
    have hnames : g.names source target = [] := by
      rw [Graph.names, Graph.labels_eq_edge?, hedge]
      rfl
    rw [if_pos hnames]
  | some l =>
    rcases (h.edge hedge).2.2 with ⟨names, hne, rfl⟩
    have hnames : g.names source target = names := by
      rw [Graph.names, Graph.labels_eq_edge?, hedge]
      exact Labels.names_ofNames names
    rw [hnames, if_neg hne]

/-- The plain analysis is local. If a directory lists one file more and no other file declares one
of its classes, then between the other files the analysis finds the same edges with the same labels,
in the same order; only edges from or to the added file are new. -/
theorem added_file_local (root : String) (s s' : Session) (added : SourcePath)
    (hgains : s.disk.Gains s'.disk (SourcePath.ofText root) added)
    (hnew : s.disk.NamesNew s'.disk (SourcePath.ofText root) added) :
    ∃ t t', (do openProject .plain root; analyze : Action Unit) s = (.ok (), t) ∧
      (do openProject .plain root; analyze : Action Unit) s' = (.ok (), t') ∧
      ∀ source target, source ≠ added → target ≠ added →
        t'.project.graph.edge? source target = t.project.graph.edge? source target := by
  rcases analyze_plain_run root s with ⟨t, hrun, hregular, hgraph⟩
  rcases analyze_plain_run root s' with ⟨t', hrun', hregular', hgraph'⟩
  refine ⟨t, t', hrun, hrun', fun source target hsource htarget => ?_⟩
  rw [hregular.graph.calls_in.edge?_eq, hregular'.graph.calls_in.edge?_eq, hgraph, hgraph',
    names_gains hgains hnew hsource htarget]

/-! ## One file between two others -/

def callerText : String := "class A \x7b int x = B.m(G.h()); \x7d"

def calleeText : String := "package p; class B \x7b \x7d"

def guestText : String := "package p; class G \x7b int y = A.f(); \x7d"

def withoutGuest : Disk :=
  ((default : Disk).put (SourcePath.ofText "A.java") (.text callerText)).put
    (SourcePath.ofText "B.java") (.text calleeText)

def withGuest : Disk :=
  (((default : Disk).put (SourcePath.ofText "A.java") (.text callerText)).put
    (SourcePath.ofText "G.java") (.text guestText)).put
    (SourcePath.ofText "B.java") (.text calleeText)

theorem gains_withGuest :
    withoutGuest.Gains withGuest (SourcePath.ofText ".") ⟨"", ["G.java"]⟩ := by
  have hfiles : withoutGuest.javaFiles (SourcePath.ofText ".") =
      [⟨"", ["A.java"]⟩, ⟨"", ["B.java"]⟩] := by decide +kernel
  have htexts : ∀ file ∈ [⟨"", ["A.java"]⟩, ⟨"", ["B.java"]⟩],
      withGuest.text? file = withoutGuest.text? file := by decide +kernel
  refine ⟨⟨[⟨"", ["A.java"]⟩], [⟨"", ["B.java"]⟩], hfiles, by decide +kernel⟩, ?_⟩
  rw [hfiles]
  exact htexts

theorem namesNew_withGuest :
    withoutGuest.NamesNew withGuest (SourcePath.ofText ".") ⟨"", ["G.java"]⟩ := by
  have hsources : withoutGuest.sources (SourcePath.ofText ".") =
      [(⟨"", ["A.java"]⟩, callerText.toList), (⟨"", ["B.java"]⟩, calleeText.toList)] := by
    decide +kernel
  have hguest : withGuest.text? ⟨"", ["G.java"]⟩ = some guestText.toList := by decide +kernel
  have htypes : Java.declaredTypes guestText.toList = ["G"] := rfl
  have htypes' : Java.declaredTypes callerText.toList = ["A"] := rfl
  have htypes'' : Java.declaredTypes calleeText.toList = ["B"] := rfl
  intro text htext name hname e he
  rw [hguest] at htext
  rw [← Option.some.inj htext, htypes, List.mem_singleton] at hname
  rw [hsources] at he
  simp only [List.mem_cons, List.not_mem_nil, or_false] at he
  rcases he with rfl | rfl
  · rw [hname, htypes']
    decide
  · rw [hname, htypes'']
    decide

theorem names_withoutGuest :
    ((Graph.ofRoot (SourcePath.ofText ".")).analyzed withoutGuest).names
      ⟨"", ["A.java"]⟩ ⟨"", ["B.java"]⟩ = ["m"] := by decide +kernel

/-- With the third file the call from the first to the second is found as before. -/
theorem added_file_local_guest :
    withoutGuest.Gains withGuest (SourcePath.ofText ".") ⟨"", ["G.java"]⟩ ∧
      withoutGuest.NamesNew withGuest (SourcePath.ofText ".") ⟨"", ["G.java"]⟩ ∧
      ∃ t, (do openProject .plain "."; analyze : Action Unit) (Session.ofDisk withGuest) =
          (.ok (), t) ∧
        t.project.graph.edge? ⟨"", ["A.java"]⟩ ⟨"", ["B.java"]⟩ = some (Labels.ofNames ["m"]) := by
  refine ⟨gains_withGuest, namesNew_withGuest, ?_⟩
  rcases added_file_local "." (Session.ofDisk withoutGuest) (Session.ofDisk withGuest) _
    gains_withGuest namesNew_withGuest with ⟨t, t', hrun, hrun', hedges⟩
  rcases analyze_plain_run "." (Session.ofDisk withoutGuest) with ⟨u, hrun'', hregular, hgraph⟩
  have hu : u = t := (Prod.mk.inj (hrun''.symm.trans hrun)).2
  have hnames : u.project.graph.names ⟨"", ["A.java"]⟩ ⟨"", ["B.java"]⟩ = ["m"] := by
    rw [hgraph]
    exact names_withoutGuest
  refine ⟨t', hrun', ?_⟩
  rw [hedges _ _ (by decide) (by decide), ← hu, hregular.graph.calls_in.edge?_eq, hnames]
  rfl

end JavaDeps
