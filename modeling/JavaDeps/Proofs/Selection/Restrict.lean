import Mathlib.Data.List.Basic
import JavaDeps.Proofs.Edges
import JavaDeps.Proofs.Text
import JavaDeps.Selection.Restrict

/-!
# Restricted graphs

What is left of an analysed graph when it is restricted to chosen classes and calls. Of an edge the
labels are kept that a chosen call names. If there are none, all labels are kept when both files
declare a chosen class.

The file defines:
- `Graph.Passable`, by which a graph can be restricted, and `Graph.keptLabels`, the labels that are
  kept on an edge, with `Restriction.ofGraph_arcs`, by which a restriction keeps the edges with
  these;
- `Graph.keptNames`, the texts that are kept on an edge of an analysed graph;
- `Graph.shown`, the classes that are kept, and which file each of them is shown with;
- `restrict_eq`, by which a restriction succeeds and is determined by both.
-/

namespace JavaDeps

/-! ## Edges that are kept -/

namespace Graph

def Below (g : Graph) (file : SourcePath) : Prop := (file.relativeTo? g.root).isSome = true

def pathText (g : Graph) (file : SourcePath) : String :=
  ((file.relativeTo? g.root).map SourcePath.toText).getD ""

/-- A file below the directory has a path in it. -/
theorem Below.relativePath {g : Graph} {file : SourcePath} (h : g.Below file) :
    g.relativePath file = .ok (g.pathText file) := by
  rcases Option.isSome_iff_exists.1 h with ⟨path, hpath⟩
  simp [Graph.relativePath, pathText, hpath]

def callText (g : Graph) (source target : SourcePath) (label : String) : String :=
  label ++ "_" ++ g.pathText source ++ "_" ++ g.pathText target

end Graph

/-- The values on an edge; none if they cannot be gone through. -/
def Labels.items (l : Labels) : List Value := l.value.elements.toOption.getD []

theorem Labels.items_eq {l : Labels} {items : List Value} (h : l.value.elements = .ok items) :
    l.items = items := by
  rw [Labels.items, h]
  rfl

namespace Graph

/-- All files with edges lie below the analysed directory, and all labels can be gone through. -/
structure Passable (g : Graph) : Prop where
  sources : ∀ e ∈ g.calls.entries, g.Below e.1
  targets : ∀ e ∈ g.calls.entries, ∀ x ∈ e.2.entries, g.Below x.1
  items : ∀ e ∈ g.calls.entries, ∀ x ∈ e.2.entries, ∃ items, x.2.value.elements = .ok items

/-- Calls with texts between files below the directory can be gone through. -/
theorem Passable.of_callsIn {g : Graph} {inside : SourcePath → Prop} (h : CallsIn inside g.calls)
    (hbelow : ∀ file, inside file → g.Below file) : g.Passable := by
  refine ⟨fun e he => hbelow _ (h.source_inside e he),
    fun e he x hx => hbelow _ (h.target_inside e he x hx), fun e he x hx => ?_⟩
  rcases h.labelled e he x hx with ⟨names, -, hnames⟩
  rw [hnames]
  exact ⟨_, rfl⟩

def namedLabels (g : Graph) (calls : NameSet) (a : Arc) : List Value :=
  Restriction.chosenLabels calls (g.pathText a.source) (g.pathText a.target) a.labels.items

def keptLabels (g : Graph) (chosen calls : NameSet) (a : Arc) : Option Labels :=
  if g.namedLabels calls a ≠ [] then some ⟨.list (g.namedLabels calls a), none⟩
  else if (Restriction.declaresChosen g chosen a.source = true ∧
      Restriction.declaresChosen g chosen a.target = true) ∧
      (calls.isEmpty = true ∨ a.labels.value.isTruthy = true) then some a.labels
  else none

def keptArc (g : Graph) (chosen calls : NameSet) (a : Arc) : Option Arc :=
  (g.keptLabels chosen calls a).map (fun l => { a with labels := l })

theorem namedLabels_of_isEmpty {g : Graph} {calls : NameSet} (h : calls.isEmpty = true) (a : Arc) :
    g.namedLabels calls a = [] := by
  have hmembers : calls.members = [] := List.isEmpty_iff.1 h
  simp [namedLabels, Restriction.chosenLabels, SortedSet.contains, hmembers]

/-- A file at an end of an edge with a chosen call is mentioned by this call. -/
theorem within_of_mem_namedLabels {g : Graph} {calls : NameSet} {a : Arc} {label : Value}
    (h : label ∈ g.namedLabels calls a) : ∃ call ∈ calls.toList,
      Text.within (g.pathText a.source) call = true ∧
      Text.within (g.pathText a.target) call = true := by
  have hcall := SortedSet.contains_iff.1 (List.mem_filter.1 h).2
  refine ⟨_, hcall, ?_, ?_⟩
  · have hw := Text.within_append (label.display ++ "_") (g.pathText a.source)
      ("_" ++ g.pathText a.target)
    simpa only [String.append_assoc] using hw
  · have hw := Text.within_append (label.display ++ "_" ++ g.pathText a.source ++ "_")
      (g.pathText a.target) ""
    simpa only [String.append_empty] using hw

end Graph

namespace Restriction

variable {g : Graph} {chosen calls : NameSet}

def keepArc (g : Graph) (r : Restriction) (a : Arc) : Restriction :=
  keepEdge g a.source a.target a.labels r

/-- A file is chosen, by one of its classes or in a call. -/
def Chosen (g : Graph) (chosen calls : NameSet) (file : SourcePath) : Bool :=
  declaresChosen g chosen file || calls.toList.any (fun call => Text.within (g.pathText file) call)

/-- A file below the directory is chosen as specified, without a failure. -/
theorem choosesFile_eq {file : SourcePath} (h : g.Below file) :
    choosesFile g chosen calls file = .ok (Chosen g chosen calls file) := by
  unfold choosesFile namedByCall Chosen
  by_cases hd : declaresChosen g chosen file = true
  · simp [hd]
  · by_cases hc : calls.isEmpty = true
    · have hmembers : calls.members = [] := List.isEmpty_iff.1 hc
      simp [hd, hc, SortedSet.toList, hmembers]
    · simp [hd, hc, h.relativePath, bind, Except.bind, pure, Except.pure]

/-- A file that is not chosen is at no end of an edge that is kept. -/
theorem keptArc_of_not_chosen {a : Arc} {file : SourcePath}
    (hfile : file = a.source ∨ file = a.target) (h : Chosen g chosen calls file = false) :
    g.keptArc chosen calls a = none := by
  rcases Bool.or_eq_false_iff.1 h with ⟨hd, hw⟩
  have hnamed : g.namedLabels calls a = [] := by
    refine List.eq_nil_iff_forall_not_mem.2 (fun label hlabel => ?_)
    rcases Graph.within_of_mem_namedLabels hlabel with ⟨call, hcall, hsource, htarget⟩
    have hfalse := List.any_eq_false.1 hw call hcall
    rcases hfile with rfl | rfl
    · exact hfalse hsource
    · exact hfalse htarget
  have hboth : ¬ (declaresChosen g chosen a.source = true ∧
      declaresChosen g chosen a.target = true) := by
    rintro ⟨hsource, htarget⟩
    rcases hfile with rfl | rfl
    · rw [hd] at hsource
      cases hsource
    · rw [hd] at htarget
      cases htarget
  simp [Graph.keptArc, Graph.keptLabels, hnamed, hboth]

section

variable {a : Arc} (hsource : g.Below a.source) (htarget : g.Below a.target)
  (hitems : ∃ items, a.labels.value.elements = .ok items)
  (hchosen : Chosen g chosen calls a.source = true)
include hsource htarget hitems hchosen

/-- The labels of an edge with chosen files are kept as specified, without a failure. -/
theorem labelsKept_eq (hchosen' : Chosen g chosen calls a.target = true) :
    labelsKept g chosen calls a.source a.target a.labels = .ok (g.keptLabels chosen calls a) := by
  -- Without chosen calls the labels are not looked at, and both files declare a chosen class.
  by_cases hc : calls.isEmpty = true
  · have hmembers : calls.members = [] := List.isEmpty_iff.1 hc
    have hdeclares : ∀ {file}, Chosen g chosen calls file = true →
        declaresChosen g chosen file = true := by
      intro file hfile
      simpa [Chosen, SortedSet.toList, hmembers] using hfile
    simp [labelsKept, hc, Graph.keptLabels, Graph.namedLabels_of_isEmpty hc, hdeclares hchosen,
      hdeclares hchosen']
  · rcases hitems with ⟨items, hitems⟩
    have hnamed : chosenLabels calls (g.pathText a.source) (g.pathText a.target) items =
        g.namedLabels calls a := by
      rw [Graph.namedLabels, Labels.items_eq hitems]
    simp only [labelsKept, hc, Bool.false_eq_true, if_false, hsource.relativePath,
      htarget.relativePath, hitems, bind, Except.bind, hnamed, Graph.keptLabels, false_or]
    by_cases hnone : g.namedLabels calls a = []
    · simp only [hnone, List.isEmpty_nil, Bool.not_true, Bool.false_eq_true, if_false, ne_eq,
        not_true_eq_false, Bool.and_eq_true]
      split <;> rfl
    · simp [hnone, pure, Except.pure]

/-- One edge from a chosen file. -/
theorem visitEdge_eq (r : Restriction) :
    visitEdge g chosen calls a.source r (a.target, a.labels) =
      .ok ((g.keptArc chosen calls a).toList.foldl (keepArc g) r) := by
  unfold visitEdge
  simp only [choosesFile_eq htarget, bind, Except.bind]
  cases ht : Chosen g chosen calls a.target with
  | false =>
    rw [keptArc_of_not_chosen (Or.inr rfl) ht]
    rfl
  | true =>
    simp only [if_true, labelsKept_eq hsource htarget hitems hchosen ht, Graph.keptArc]
    cases g.keptLabels chosen calls a <;> rfl

end

/-- The edges from one file. -/
theorem visitSource_eq (h : g.Passable) {e : SourcePath × Targets SourcePath}
    (he : e ∈ g.calls.entries) (r : Restriction) :
    visitSource g chosen calls r e =
      .ok (((rowArcs e.1 e.2.entries).filterMap (g.keptArc chosen calls)).foldl (keepArc g) r) := by
  have hsource := h.sources e he
  simp only [visitSource, choosesFile_eq hsource, bind, Except.bind]
  cases hchosen : Chosen g chosen calls e.1 with
  | false =>
    have hnone : (rowArcs e.1 e.2.entries).filterMap (g.keptArc chosen calls) = [] := by
      refine List.filterMap_eq_nil_iff.2 (fun a ha => ?_)
      rcases List.mem_map.1 ha with ⟨x, -, rfl⟩
      exact keptArc_of_not_chosen (Or.inl rfl) hchosen
    rw [hnone]
    rfl
  | true =>
    -- Edge by edge; the whole row can be gone through, so every step succeeds.
    have hrow : ∀ row : List (SourcePath × Labels), (∀ x ∈ row, x ∈ e.2.entries) →
        ∀ r : Restriction, row.foldlM (visitEdge g chosen calls e.1) r =
          .ok (((rowArcs e.1 row).filterMap (g.keptArc chosen calls)).foldl (keepArc g) r) := by
      intro row hmem
      induction row with
      | nil => exact fun r => rfl
      | cons x rest ih =>
        intro r
        have hx := hmem x List.mem_cons_self
        have hstep := visitEdge_eq (a := ⟨e.1, x.1, x.2⟩) hsource (h.targets e he x hx)
          (h.items e he x hx) hchosen r
        have hsplit : (rowArcs e.1 (x :: rest)).filterMap (g.keptArc chosen calls) =
            (g.keptArc chosen calls ⟨e.1, x.1, x.2⟩).toList ++
              (rowArcs e.1 rest).filterMap (g.keptArc chosen calls) := by
          cases hkept : g.keptArc chosen calls ⟨e.1, x.1, x.2⟩ <;> simp [rowArcs, hkept]
        rw [List.foldlM_cons, hstep, hsplit, List.foldl_append]
        exact ih (fun y hy => hmem y (List.mem_cons_of_mem _ hy)) _
    exact hrow e.2.entries (fun _ hx => hx) r

/-- All edges: those that are kept are entered one after the other. -/
theorem ofGraph_arcs (h : g.Passable) :
    ofGraph g chosen calls =
      .ok (((arcsOf g.calls).filterMap (g.keptArc chosen calls)).foldl (keepArc g)
        (keepClasses g chosen)) := by
  have hrows : ∀ entries : List (SourcePath × Targets SourcePath),
      (∀ e ∈ entries, e ∈ g.calls.entries) →
      ∀ r : Restriction, entries.foldlM (visitSource g chosen calls) r =
        .ok (((entries.flatMap (fun e => rowArcs e.1 e.2.entries)).filterMap
          (g.keptArc chosen calls)).foldl (keepArc g) r) := by
    intro entries hentries
    induction entries with
    | nil => exact fun r => rfl
    | cons e rest ih =>
      intro r
      rw [List.foldlM_cons, visitSource_eq h (hentries e List.mem_cons_self),
        List.flatMap_cons, List.filterMap_append, List.foldl_append]
      exact ih (fun e' he' => hentries e' (List.mem_cons_of_mem _ he')) _
  exact hrows g.calls.entries (fun e he => he) _

end Restriction

/-! ## Edges of an analysed graph -/

namespace Graph

def namedBy (g : Graph) (calls : NameSet) (e : Edge) : List String :=
  e.names.filter (fun label => calls.contains (g.callText e.source e.target label))

def keptNames (g : Graph) (chosen calls : NameSet) (e : Edge) : Option (List String) :=
  if g.namedBy calls e ≠ [] then some (g.namedBy calls e)
  else if Restriction.declaresChosen g chosen e.source = true ∧
      Restriction.declaresChosen g chosen e.target = true then some e.names
  else none

/-- On texts, the labels named by the calls are the texts named by them. -/
theorem namedLabels_arc (g : Graph) (calls : NameSet) (e : Edge) :
    g.namedLabels calls e.arc = (g.namedBy calls e).map Value.str := by
  have hitems : e.arc.labels.items = e.names.map Value.str := rfl
  simp only [namedLabels, Restriction.chosenLabels, hitems, namedBy, List.filter_map]
  rfl

/-- On texts, the labels that are kept are the texts that are kept. -/
theorem keptLabels_arc {g : Graph} {chosen calls : NameSet} {e : Edge} (he : e.names ≠ []) :
    g.keptLabels chosen calls e.arc = (g.keptNames chosen calls e).map Labels.ofNames := by
  have htruthy : e.arc.labels.value.isTruthy = true := by
    simpa [Edge.arc, Labels.ofNames, Value.ofNames, Value.isTruthy] using he
  unfold keptLabels keptNames
  rw [namedLabels_arc]
  by_cases hnamed : g.namedBy calls e = []
  · simp only [hnamed, List.map_nil, ne_eq, not_true_eq_false, if_false, htruthy, or_true, and_true]
    by_cases hboth : Restriction.declaresChosen g chosen e.source = true ∧
        Restriction.declaresChosen g chosen e.target = true
    · rw [if_pos hboth]
      exact if_pos hboth
    · rw [if_neg hboth]
      exact if_neg hboth
  · simp [hnamed, Labels.ofNames, Value.ofNames]

end Graph

namespace Restriction

variable {g : Graph} {chosen calls : NameSet}

def keepWhole (g : Graph) (r : Restriction) (e : Edge) : Restriction :=
  keepEdge g e.source e.target (Labels.ofNames e.names) r

/-- A restriction enters the kept edges into the chosen classes. -/
theorem ofGraph_eq {inside : SourcePath → Prop} (h : CallsIn inside g.calls)
    (hbelow : ∀ file, inside file → g.Below file) :
    ofGraph g chosen calls =
      .ok ((relabelEdges (g.keptNames chosen calls) (edgesOf g.calls)).foldl (keepWhole g)
        (keepClasses g chosen)) := by
  have hkept : (arcsOf g.calls).filterMap (g.keptArc chosen calls) =
      (relabelEdges (g.keptNames chosen calls) (edgesOf g.calls)).map Edge.arc := by
    rw [h.arcsOf_eq, relabelEdges, List.filterMap_map, List.map_filterMap]
    refine List.filterMap_congr (fun e he => ?_)
    rw [Function.comp_apply, Graph.keptArc, Graph.keptLabels_arc (h.of_mem_edgesOf he).2.2]
    cases g.keptNames chosen calls e <;> rfl
  rw [ofGraph_arcs (Graph.Passable.of_callsIn h hbelow), hkept, List.foldl_map]
  rfl

/-! ## Classes that are kept -/

def keepClass (g : Graph) (chosen : NameSet) (r : Restriction) (e : String × SourcePath) :
    Restriction :=
  if chosen.contains e.1 then
    { r with
      classes := r.classes.set e.1 e.2
      declared := match g.declared.get? e.2 with
        | some names => r.declared.set e.2 names
        | none => r.declared }
  else r

theorem keepClasses_eq (g : Graph) (chosen : NameSet) :
    keepClasses g chosen = g.classes.entries.foldl (keepClass g chosen) {} := rfl

/-- The files at the ends of edges, in the order in which they are come to. -/
def endsOf (edges : List Edge) : List SourcePath := edges.flatMap (fun e => [e.source, e.target])

def keepFiles (g : Graph) (files : List SourcePath) (r : Restriction) : Restriction :=
  files.foldl (fun r file => keepFile g file r) r

/-- A file that declares a class is listed with all its classes. -/
theorem declared_of_mem_classesOf {file : SourcePath} {name : String}
    (h : name ∈ (g.classesOf file).toList) : g.declared.get? file = some (g.classesOf file) := by
  unfold Graph.classesOf Table.getD at h ⊢
  cases hget : g.declared.get? file with
  | none =>
    rw [hget] at h
    cases h
  | some names => rfl

/-- Keeps one class of a file, unless a class of that name is kept already. -/
def keepName (g : Graph) (file : SourcePath) (r : Restriction) (name : String) : Restriction :=
  if r.classes.contains name then r
  else { r with
    classes := r.classes.set name file
    declared := r.declared.set file (g.classesOf file) }

theorem keepFile_eq (file : SourcePath) (r : Restriction) :
    keepFile g file r = (g.classesOf file).toList.foldl (keepName g file) r := rfl

def withCalls (r : Restriction) (c : Table SourcePath (Targets SourcePath)) : Restriction :=
  { r with calls := c }

/-- Keeping a file does not look at the calls. -/
theorem keepFile_withCalls (file : SourcePath) (r : Restriction)
    (c : Table SourcePath (Targets SourcePath)) :
    keepFile g file (r.withCalls c) = (keepFile g file r).withCalls c := by
  simp only [keepFile_eq]
  generalize (g.classesOf file).toList = names
  induction names generalizing r with
  | nil => rfl
  | cons name rest ih =>
    have hstep : keepName g file (r.withCalls c) name = (keepName g file r name).withCalls c := by
      by_cases h : r.classes.contains name = true <;> simp [keepName, withCalls, h]
    rw [List.foldl_cons, List.foldl_cons, hstep, ih]

theorem keepFiles_withCalls (files : List SourcePath) (r : Restriction)
    (c : Table SourcePath (Targets SourcePath)) :
    keepFiles g files (r.withCalls c) = (keepFiles g files r).withCalls c := by
  induction files generalizing r with
  | nil => rfl
  | cons file rest ih =>
    simp only [keepFiles, List.foldl_cons] at ih ⊢
    rw [keepFile_withCalls, ih]

/-- Keeping edges is keeping the classes of their files and, apart from that, entering them. -/
theorem foldl_keepWhole (edges : List Edge) (r : Restriction) :
    edges.foldl (keepWhole g) r =
      (keepFiles g (endsOf edges) r).withCalls (edges.foldl enterEdge r.calls) := by
  induction edges generalizing r with
  | nil => rfl
  | cons e rest ih =>
    -- The classes are kept without looking at the calls, so both can be done apart.
    have hstep : keepWhole g r e =
        (keepFiles g [e.source, e.target] r).withCalls (enterEdge r.calls e) := by
      rw [← keepFiles_withCalls]
      rfl
    have hends : keepFiles g (endsOf (e :: rest)) r =
        keepFiles g (endsOf rest) (keepFiles g [e.source, e.target] r) := by
      simp [keepFiles, endsOf]
    rw [List.foldl_cons, ih, hstep, keepFiles_withCalls, hends]
    rfl

theorem keepClasses_calls (g : Graph) (chosen : NameSet) :
    (keepClasses g chosen).calls = Table.empty := by
  have hstep : ∀ (entries : List (String × SourcePath)) (r : Restriction),
      (entries.foldl (keepClass g chosen) r).calls = r.calls := by
    intro entries
    induction entries with
    | nil => intro r; rfl
    | cons e rest ih =>
      intro r
      rw [List.foldl_cons, ih]
      by_cases h : chosen.contains e.1 = true <;> simp [keepClass, h]
  exact hstep _ _

end Restriction

namespace Graph

def keptEdges (g : Graph) (chosen calls : NameSet) : List Edge :=
  relabelEdges (g.keptNames chosen calls) (edgesOf g.calls)

/-- The classes that are kept: the chosen ones, and those of the files at the ends of kept edges. -/
def shown (g : Graph) (chosen calls : NameSet) : Restriction :=
  Restriction.keepFiles g (Restriction.endsOf (g.keptEdges chosen calls))
    (Restriction.keepClasses g chosen)

/-- An edge is kept with its chosen labels, or else, between files of chosen classes, as it is. -/
theorem keptNames_eq_some_iff {g : Graph} {chosen calls : NameSet} {e : Edge}
    {names : List String} :
    g.keptNames chosen calls e = some names ↔
      g.namedBy calls e ≠ [] ∧ g.namedBy calls e = names ∨
      g.namedBy calls e = [] ∧ (Restriction.declaresChosen g chosen e.source = true ∧
        Restriction.declaresChosen g chosen e.target = true) ∧ e.names = names := by
  by_cases hnamed : g.namedBy calls e = [] <;> simp [keptNames, hnamed]

/-- An edge that is kept has a label. -/
theorem keptNames_ne_nil {g : Graph} {chosen calls : NameSet} {e : Edge} {names : List String}
    (he : e.names ≠ []) (h : g.keptNames chosen calls e = some names) : names ≠ [] := by
  rcases keptNames_eq_some_iff.1 h with ⟨hnamed, rfl⟩ | ⟨-, -, rfl⟩
  · exact hnamed
  · exact he

def restricted (g : Graph) (chosen calls : NameSet) : Graph :=
  { g with
    classes := (g.shown chosen calls).classes
    declared := (g.shown chosen calls).declared
    closed := true
    calls := keepRows (g.keptNames chosen calls) g.calls
    hiddenNodes := SortedSet.empty
    hiddenEdges := SortedSet.empty }

variable {g : Graph} {inside : SourcePath → Prop}

/-- The edges of a restriction are the kept ones. -/
theorem edgesOf_restricted (chosen calls : NameSet) :
    edgesOf (g.restricted chosen calls).calls = g.keptEdges chosen calls :=
  edgesOf_keepRows _ _

/-- The calls of a restriction stay in place. -/
theorem restricted_callsIn (h : CallsIn inside g.calls) (chosen calls : NameSet) :
    CallsIn inside (g.restricted chosen calls).calls :=
  h.keepRows (fun _ he _ hnames => keptNames_ne_nil (h.of_mem_edgesOf he).2.2 hnames)

/-- A restriction succeeds on the graphs of an analysis. -/
theorem restrict_eq (h : CallsIn inside g.calls) (hbelow : ∀ file, inside file → g.Below file)
    (chosen calls : NameSet) : g.restrict chosen calls = .ok (g.restricted chosen calls) := by
  -- Entering the kept edges one by one rebuilds the table with the kept rows.
  have hcalls : (g.keptEdges chosen calls).foldl enterEdge Table.empty =
      (g.restricted chosen calls).calls := by
    rw [← edgesOf_restricted]
    exact (restricted_callsIn h chosen calls).foldl_enterEdge
  have hfold := Restriction.foldl_keepWhole (g := g) (g.keptEdges chosen calls)
    (Restriction.keepClasses g chosen)
  rw [Restriction.keepClasses_calls, hcalls] at hfold
  simp only [restrict, Restriction.ofGraph_eq h hbelow, bind, Except.bind]
  exact congrArg (fun r : Restriction => Except.ok (Graph.showAll { g with
    classes := r.classes, declared := r.declared, closed := true, calls := r.calls })) hfold

end Graph

end JavaDeps
