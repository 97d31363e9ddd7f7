import JavaDeps.Proofs.Operations
import JavaDeps.Proofs.Selection.AsSet
import JavaDeps.Proofs.Selection.Shown

/-!
# What a selection removes

A selection is meant to leave a part of what was there. The classes of the files at the ends of kept
edges are listed again, each with the first of these files that declares it. Where two files declare
the same name, this may be another file than before, and a file may be left without a class.
-/

namespace JavaDeps

/-! ## Graphs of an analysis and their restrictions -/

namespace Graph

/-- A graph as an analysis leaves it: the calls run between files below the directory, and the
classes of these files are listed. -/
structure Ordered (g : Graph) : Prop where
  calls_in : CallsIn g.Below g.calls
  listed : ∀ file ∈ Restriction.endsOf (edgesOf g.calls), ∀ name,
    (g.classesOf file).contains name = true → name ∈ g.classes.keys

def firstEnd? (g : Graph) (chosen calls : NameSet) (name : String) : Option SourcePath :=
  (Restriction.endsOf (g.keptEdges chosen calls)).find?
    (fun file => (g.classesOf file).contains name)

/-- An end of a kept edge is an end of an edge. -/
theorem mem_ends_of_kept {g : Graph} {chosen calls : NameSet} {file : SourcePath}
    (h : file ∈ Restriction.endsOf (g.keptEdges chosen calls)) :
    file ∈ Restriction.endsOf (edgesOf g.calls) := by
  rcases List.mem_flatMap.1 h with ⟨e, he, hfile⟩
  rcases mem_relabelEdges.1 he with ⟨names, hmem, -⟩
  exact List.mem_flatMap.2 ⟨_, hmem, hfile⟩

/-- A class of a restriction is a chosen one, or one of a file at the end of a kept edge. -/
theorem get?_restricted (g : Graph) (chosen calls : NameSet) (name : String) :
    (g.restricted chosen calls).classes.get? name =
      (if chosen.contains name then g.classes.get? name else none).or
        (g.firstEnd? chosen calls name) :=
  get?_classes_restricted chosen calls name

namespace Ordered

variable {g : Graph} (h : g.Ordered) (chosen calls : NameSet)

include h

/-- A class that is declared at the end of a kept edge was listed. -/
theorem mem_keys_of_firstEnd? {name : String} {file : SourcePath}
    (hfirst : g.firstEnd? chosen calls name = some file) : name ∈ g.classes.keys := by
  have hdeclares := List.find?_some hfirst
  exact h.listed file (mem_ends_of_kept (List.mem_of_find?_eq_some hfirst)) name hdeclares

/-- A restriction leaves the graph ordered. -/
theorem restricted : (g.restricted chosen calls).Ordered := by
  refine ⟨restricted_callsIn h.calls_in chosen calls, fun file hend name hname => ?_⟩
  rw [edgesOf_restricted] at hend
  -- Only of a file with a listed class are the classes known, and they are those that it had.
  by_cases hfile : ∃ other, (g.restricted chosen calls).classes.get? other = some file
  · rcases hfile with ⟨other, hother⟩
    rw [classesOf_listed hother] at hname
    have hfirst : (g.firstEnd? chosen calls name).isSome = true :=
      List.find?_isSome.2 ⟨file, hend, hname⟩
    rw [← Table.contains_iff_mem_keys, Table.contains_eq_isSome, get?_restricted, Option.isSome_or,
      hfirst, Bool.or_true]
  · rw [classesOf_unlisted (fun other hother => hfile ⟨other, hother⟩)] at hname
    cases hname

end Ordered

theorem Ordered.restrictable : Restrictable Ordered where
  showAll hg := ⟨hg.calls_in, hg.listed⟩
  restrict {g g' chosen calls} hg hr := by
    rw [restrict_eq hg.calls_in (fun _ hfile => hfile)] at hr
    cases hr
    exact hg.restricted chosen calls

end Graph

theorem CallsIn.mono {inside inside' : SourcePath → Prop}
    {calls : Table SourcePath (Targets SourcePath)} (h : CallsIn inside calls)
    (hinside : ∀ file, inside file → inside' file) : CallsIn inside' calls where
  source_inside e he := hinside _ (h.source_inside e he)
  row_ne_nil := h.row_ne_nil
  target_inside e he x hx := hinside _ (h.target_inside e he x hx)
  labelled := h.labelled

/-! ## Sessions after an analysis -/

namespace Session

/-- Sessions after the plain analysis of a directory and any selections. -/
inductive Analysed : Session → Prop where
  | analyze {root : String} {s t : Session}
      (hrun : (do openProject .plain root; JavaDeps.analyze : Action Unit) s =
        (.ok (), t)) : Analysed t
  | select {s t : Session} {ids : Value} (hs : Analysed s)
      (hrun : filterGraph ids s = (.ok (), t)) : Analysed t

/-- An analysis leaves the graph ordered. -/
theorem Analysed.ordered {s : Session} (h : s.Analysed) : s.project.graph.Ordered := by
  induction h with
  | @analyze root s t hrun =>
    rcases analyze_plain_run root s with ⟨t', hrun', hregular, hgraph⟩
    have ht : t' = t := (Prod.mk.inj (hrun'.symm.trans hrun)).2
    subst ht
    have hroot : t'.project.graph.root = SourcePath.ofText root := by
      rw [hgraph, Graph.root_analyzed]
      rfl
    refine ⟨hregular.graph.calls_in.mono (fun _ hfile => hfile.below hroot),
      fun file _ name hname => ?_⟩
    exact hregular.graph.declared_class file name (SortedSet.contains_iff.1 hname)
  | @select s t ids _ hrun ih =>
    have ht := (filterGraph_maintains Graph.Ordered.restrictable ids s ih).1
    rwa [hrun] at ht

/-! ## Runs of a selection -/

/-- The classes that ids choose, with those that page functions bring in. -/
def chosenBy (s : Session) (ids : List String) : NameSet :=
  (Choice.ofIds ids).classes.insertAll (s.pageClasses (Choice.ofIds ids))

/-- Without pages exactly the chosen classes are meant. -/
theorem chosenBy_of_noPages {s : Session} {ids : List String} (h : NoPages ids) :
    s.chosenBy ids = (Choice.ofIds ids).classes := by
  rw [chosenBy, pageClasses, pages_ofIds h]
  rfl

/-- Ids keep the whole graph: there are none, or they choose four fifths of its classes. -/
def KeepsWhole (s : Session) (ids : List String) : Prop :=
  ids = [] ∨ keepsAll (s.chosenBy ids).size s.project.graph.classes.size = true

/-- What ids choose is known: they are not ids of page functions, or the controllers of the page
functions are texts. -/
def Reads (s : Session) (ids : List String) : Prop := NoPages ids ∨ s.NamesControllers

/-- A selection restricts the graph to the classes and calls that its ids choose. -/
theorem Reads.filterGraph_run {s : Session} {ids : List String} (h : s.Reads ids) (hne : ids ≠ []) :
    ∃ log, filterGraph (Value.ofNames ids) s =
      s.selecting (s.chosenBy ids) (Choice.ofIds ids).calls log := by
  rcases h with hids | hs
  · have htruthy : (Value.ofNames ids).isTruthy = true := by
      simp [Value.ofNames, Value.isTruthy, hne]
    rcases JavaDeps.filterGraph_run htruthy (idTexts_ofNames ids) s with ⟨text, hrun⟩
    rcases hrun _ _ (chosenClasses_run (pages_ofIds hids) _) with ⟨log, hlog⟩
    rw [chosenBy_of_noPages hids]
    exact ⟨log, hlog⟩
  · exact filterGraph_ofNames_run hs hne

/-- After a selection the graph is as before, apart from what was hidden, or it is restricted. -/
theorem Analysed.filterGraph_leads {s : Session} (h : s.Analysed) (ids : List String)
    (hids : s.Reads ids) :
    ∃ t, filterGraph (Value.ofNames ids) s = (.ok (), t) ∧
      (s.KeepsWhole ids →
        t.project.graph = s.project.graph ∨ t.project.graph = s.project.graph.showAll) ∧
      (¬ s.KeepsWhole ids → t.project.graph =
        s.project.graph.restricted (s.chosenBy ids) (Choice.ofIds ids).calls) := by
  by_cases hne : ids = []
  · subst hne
    exact ⟨_, rfl, fun _ => Or.inl rfl, fun hnot => absurd (Or.inl rfl) hnot⟩
  · rcases hids.filterGraph_run hne with ⟨log, hrun⟩
    rw [Session.selecting, Graph.selected] at hrun
    by_cases hall : keepsAll (s.chosenBy ids).size s.project.graph.classes.size = true
    · rw [if_pos hall] at hrun
      exact ⟨_, hrun, fun _ => Or.inr rfl, fun hnot => absurd (Or.inr hall) hnot⟩
    · rw [if_neg hall, Graph.restrict_eq h.ordered.calls_in (fun _ hfile => hfile)] at hrun
      exact ⟨_, hrun, fun hkeeps => absurd (hkeeps.resolve_left hne) hall, fun _ => rfl⟩

/-- The same for ids of classes and calls that are too few to keep the whole graph. -/
theorem Analysed.filterGraph_restricts {s : Session} (h : s.Analysed) (ids : List String)
    (hids : NoPages ids) (hne : ids ≠ [])
    (hfew : keepsAll (Choice.ofIds ids).classes.size s.project.graph.classes.size = false) :
    ∃ t, filterGraph (Value.ofNames ids) s = (.ok (), t) ∧ t.project.graph =
      s.project.graph.restricted (Choice.ofIds ids).classes (Choice.ofIds ids).calls := by
  rcases h.filterGraph_leads ids (Or.inl hids) with ⟨t, hrun, -, hrestricted⟩
  rw [KeepsWhole, chosenBy_of_noPages hids, hfew] at hrestricted
  exact ⟨t, hrun, hrestricted (by simp [hne])⟩

end Session

/-! ## Parts of a graph -/

namespace Graph

def Connects (g : Graph) (file : SourcePath) : Prop :=
  ∃ other, (g.edge? file other).isSome = true ∨ (g.edge? other file).isSome = true

/-- Nothing is new in the second graph: its classes were listed with the same files before, and the
files at the ends of its edges keep the classes that were known of them. -/
structure OnlyRemoves (g g' : Graph) : Prop where
  classes : ∀ name file, g'.classes.get? name = some file → g.classes.get? name = some file
  declared : ∀ file names, g'.Connects file → g.declared.get? file = some names →
    g'.declared.get? file = some names

/-- The files at the ends of kept edges keep their classes. A class that is declared there was
listed with the first such file, unless it is chosen. With every such file a class was listed that
is chosen or declared there. -/
structure KeepsOwners (g : Graph) (chosen calls : NameSet) : Prop where
  listed : ∀ name file, g.firstEnd? chosen calls name = some file →
    g.classes.get? name = some file ∨ chosen.contains name = true
  known : ∀ file ∈ Restriction.endsOf (g.keptEdges chosen calls),
    ∀ names, g.declared.get? file = some names → ∃ name, g.classes.get? name = some file ∧
      (chosen.contains name = true ∨ (g.firstEnd? chosen calls name).isSome = true)

/-- A file has edges exactly if it is an end of one. -/
theorem connects_iff {inside : SourcePath → Prop} {g : Graph} (h : CallsIn inside g.calls)
    {file : SourcePath} : g.Connects file ↔ file ∈ Restriction.endsOf (edgesOf g.calls) := by
  simp only [Restriction.endsOf, List.mem_flatMap, List.mem_cons, List.not_mem_nil, or_false]
  constructor
  · rintro ⟨other, hedge | hedge⟩ <;> rcases Option.isSome_iff_exists.1 hedge with ⟨l, hl⟩ <;>
      rcases (h.edge hl).2.2 with ⟨names, -, rfl⟩
    · exact ⟨⟨file, other, names⟩, h.mem_edgesOf.2 hl, Or.inl rfl⟩
    · exact ⟨⟨other, file, names⟩, h.mem_edgesOf.2 hl, Or.inr rfl⟩
  · rintro ⟨e, he, rfl | rfl⟩ <;> have hl := h.mem_edgesOf.1 he
    · exact ⟨e.target, Or.inl (by rw [hl]; rfl)⟩
    · exact ⟨e.source, Or.inr (by rw [hl]; rfl)⟩

namespace Ordered

variable {g : Graph} (h : g.Ordered) (chosen calls : NameSet)

include h

omit h in
/-- Known classes of a file stay known exactly if a class is still listed with it. -/
theorem declared_restricted_iff {file : SourcePath} {names : NameSet}
    (hdeclared : g.declared.get? file = some names) :
    (g.restricted chosen calls).declared.get? file = some names ↔
      ∃ name, (g.restricted chosen calls).classes.get? name = some file := by
  have hagrees := shown_agrees (g := g) chosen calls
  constructor
  · intro hkept
    refine Classical.byContradiction (fun hnone => ?_)
    have hlost := hagrees.unlisted (fun name hname => hnone ⟨name, hname⟩)
    exact absurd (hkept.symm.trans hlost) (by simp)
  · rintro ⟨name, hname⟩
    exact (hagrees.listed hname).trans hdeclared

/-- No class is listed anew exactly if those at the ends of kept edges were listed there. -/
theorem classes_only_iff :
    (∀ name file, (g.restricted chosen calls).classes.get? name = some file →
        g.classes.get? name = some file) ↔
      ∀ name file, g.firstEnd? chosen calls name = some file →
        g.classes.get? name = some file ∨ chosen.contains name = true := by
  refine forall_congr' (fun name => ?_)
  rw [get?_restricted]
  by_cases hc : chosen.contains name = true
  · cases hclass : g.classes.get? name with
    | some file' => simp [hc]
    | none =>
      -- A class that was not listed is not declared there.
      have hnone : g.firstEnd? chosen calls name = none := by
        refine Option.eq_none_iff_forall_ne_some.2 (fun file hfirst => ?_)
        exact Table.get?_eq_none_iff.1 hclass (h.mem_keys_of_firstEnd? chosen calls hfirst)
      simp [hnone]
  · simp [hc]

omit h in
/-- If the listed classes were listed before, a class stays listed with its file exactly if it is
chosen or declared at an end of a kept edge. -/
theorem listed_restricted_iff
    (honly : ∀ name file, (g.restricted chosen calls).classes.get? name = some file →
      g.classes.get? name = some file) {name : String} {file : SourcePath} :
    (g.restricted chosen calls).classes.get? name = some file ↔
      g.classes.get? name = some file ∧
        (chosen.contains name = true ∨ (g.firstEnd? chosen calls name).isSome = true) := by
  constructor
  · intro hlisted
    refine ⟨honly name file hlisted, ?_⟩
    rw [get?_restricted] at hlisted
    by_cases hc : chosen.contains name = true
    · exact Or.inl hc
    · rw [if_neg hc, Option.none_or] at hlisted
      exact Or.inr (by rw [hlisted]; rfl)
  · rintro ⟨hclass, hkept⟩
    have hsome : ((g.restricted chosen calls).classes.get? name).isSome = true := by
      rw [get?_restricted, Option.isSome_or]
      rcases hkept with hc | hend
      · rw [if_pos hc, hclass]
        rfl
      · rw [hend, Bool.or_true]
    rcases Option.isSome_iff_exists.1 hsome with ⟨file', hfile'⟩
    -- The file that the class is listed with is the one that it had.
    have hsame := (honly name file' hfile').symm.trans hclass
    rw [hfile', Option.some.inj hsame]

/-- A restriction only removes exactly if the files at the ends of kept edges keep their classes. -/
theorem onlyRemoves_iff :
    g.OnlyRemoves (g.restricted chosen calls) ↔ g.KeepsOwners chosen calls := by
  have hends : ∀ file, (g.restricted chosen calls).Connects file ↔
      file ∈ Restriction.endsOf (g.keptEdges chosen calls) := by
    intro file
    rw [connects_iff (restricted_callsIn h.calls_in chosen calls), edgesOf_restricted]
  -- Of a file whose classes were known, a class has to be listed.
  have hknown : (∀ name file, (g.restricted chosen calls).classes.get? name = some file →
      g.classes.get? name = some file) → ∀ {file : SourcePath} {names : NameSet},
      g.declared.get? file = some names →
      ((g.restricted chosen calls).declared.get? file = some names ↔
        ∃ name, g.classes.get? name = some file ∧
          (chosen.contains name = true ∨ (g.firstEnd? chosen calls name).isSome = true)) := by
    intro honly file names hdeclared
    rw [declared_restricted_iff chosen calls hdeclared]
    exact exists_congr (fun name => listed_restricted_iff chosen calls honly)
  constructor
  · rintro ⟨honly, hdeclared⟩
    refine ⟨(h.classes_only_iff chosen calls).1 honly, fun file hend names hnames => ?_⟩
    exact (hknown honly hnames).1 (hdeclared file names ((hends file).2 hend) hnames)
  · rintro ⟨hlisted, hfiles⟩
    have honly := (h.classes_only_iff chosen calls).2 hlisted
    refine ⟨honly, fun file names hend hnames => (hknown honly hnames).2 ?_⟩
    exact hfiles file ((hends file).1 hend) names hnames

end Ordered

/-- Files keep their classes if each of them is the one that its classes are listed with. -/
theorem KeepsOwners.of_sole {g : Graph} {chosen calls : NameSet}
    (h : ∀ file ∈ Restriction.endsOf (g.keptEdges chosen calls), g.Knows file ∧
      ∀ name ∈ (g.classesOf file).toList, g.classes.get? name = some file) :
    g.KeepsOwners chosen calls := by
  constructor
  · intro name file hfirst
    have hdeclares := List.find?_some hfirst
    have hfile := (h file (List.mem_of_find?_eq_some hfirst)).2
    exact Or.inl (hfile name (SortedSet.contains_iff.1 hdeclares))
  · intro file hend names _
    rcases List.exists_mem_of_ne_nil _ (h file hend).1 with ⟨name, hname⟩
    refine ⟨name, (h file hend).2 name hname, Or.inr ?_⟩
    exact List.find?_isSome.2 ⟨file, hend, SortedSet.contains_iff.2 hname⟩

/-- A selection of the whole graph brings in nothing new. -/
theorem onlyRemoves_of_whole {g g' : Graph} (h : g' = g ∨ g' = g.showAll) : g.OnlyRemoves g' := by
  rcases h with rfl | rfl <;>
    exact ⟨fun _ _ hclass => hclass, fun _ _ _ hdeclared => hdeclared⟩

end Graph

/-! ## Selections -/

/-- A selection in an analysed session only removes exactly in these cases: the ids keep the whole
graph, or the files at the ends of kept edges keep their classes. -/
theorem selection_only_removes_iff (s : Session) (h : s.Analysed) (ids : List String)
    (hids : s.Reads ids) :
    ∃ t, filterGraph (Value.ofNames ids) s = (.ok (), t) ∧
      (s.project.graph.OnlyRemoves t.project.graph ↔ s.KeepsWhole ids ∨
        s.project.graph.KeepsOwners (s.chosenBy ids) (Choice.ofIds ids).calls) := by
  rcases h.filterGraph_leads ids hids with ⟨t, hrun, hwhole, hrestricted⟩
  refine ⟨t, hrun, ?_⟩
  by_cases hkeeps : s.KeepsWhole ids
  · exact iff_of_true (Graph.onlyRemoves_of_whole (hwhole hkeeps)) (Or.inl hkeeps)
  · rw [hrestricted hkeeps, h.ordered.onlyRemoves_iff, or_iff_right hkeeps]

/-- Two files declare a class `C`, of which the first one calls `B`, as the class `D` does. -/
def rivalFiles : Disk :=
  ((((default : Disk).put (SourcePath.ofText "a/C.java")
        (.text "class C \x7b int x = B.m(); \x7d")).put
      (SourcePath.ofText "b/C.java") (.text "class C \x7b \x7d")).put
    (SourcePath.ofText "B.java") (.text "class B \x7b \x7d")).put
    (SourcePath.ofText "D.java") (.text "class D \x7b int y = B.n(); \x7d")

/-- The classes with a file of their own stay with it. -/
theorem rivalFiles_selection :
    ∃ t u, (do openProject .plain "."; analyze : Action Unit) (Session.ofDisk rivalFiles) =
        (.ok (), t) ∧
      filterGraph (Value.ofNames ["class_B", "class_D"]) t = (.ok (), u) ∧
      t.project.graph.OnlyRemoves u.project.graph := by
  rcases analyze_plain_run "." (Session.ofDisk rivalFiles) with ⟨t, hrun, -, hgraph⟩
  rcases selection_only_removes_iff t (.analyze hrun) ["class_B", "class_D"]
    (Or.inl (by decide)) with
    ⟨u, hselect, hiff⟩
  refine ⟨t, u, hrun, hselect, hiff.2 (Or.inr (Graph.KeepsOwners.of_sole ?_))⟩
  rw [hgraph, Session.chosenBy_of_noPages (by decide)]
  unfold Graph.Knows
  decide +kernel

/-- After the call was chosen, the class `C` is listed with its first file, which it was not before.
After both classes were chosen, nothing is known of the classes of this file, although its call is
shown. -/
theorem rivalFiles_moved :
    ∃ t u v, (do openProject .plain "."; analyze : Action Unit) (Session.ofDisk rivalFiles) =
        (.ok (), t) ∧
      filterGraph (Value.ofNames ["method_m_a/C.java_B.java"]) t = (.ok (), u) ∧
      filterGraph (Value.ofNames ["class_B", "class_C"]) t = (.ok (), v) ∧
      ¬ t.project.graph.OnlyRemoves u.project.graph ∧
      ¬ t.project.graph.OnlyRemoves v.project.graph := by
  rcases analyze_plain_run "." (Session.ofDisk rivalFiles) with ⟨t, hrun, -, hgraph⟩
  have hanalysed : t.Analysed := .analyze hrun
  have hfacts : (keepsAll 0 t.project.graph.classes.size = false ∧
        keepsAll 2 t.project.graph.classes.size = false) ∧
      ((t.project.graph.restricted .empty (.mk ["m_a/C.java_B.java"])).classes.get? "C" =
          some (SourcePath.ofText "a/C.java") ∧
        t.project.graph.classes.get? "C" ≠ some (SourcePath.ofText "a/C.java")) ∧
      ((t.project.graph.restricted (.mk ["B", "C"]) .empty).edge? (SourcePath.ofText "a/C.java")
          (SourcePath.ofText "B.java")).isSome = true ∧
      t.project.graph.declared.get? (SourcePath.ofText "a/C.java") = some (.mk ["C"]) ∧
      (t.project.graph.restricted (.mk ["B", "C"]) .empty).declared.get?
        (SourcePath.ofText "a/C.java") =
        none := by
    rw [hgraph]
    decide +kernel
  rcases hfacts with ⟨⟨hnone, htwo⟩, ⟨hnew, hold⟩, hedge, hknown, hlost⟩
  rcases hanalysed.filterGraph_restricts ["method_m_a/C.java_B.java"] (by decide)
    (by decide) hnone with
    ⟨u, hu, hgraph_u⟩
  rcases hanalysed.filterGraph_restricts ["class_B", "class_C"] (by decide) (by decide) htwo with
    ⟨v, hv, hgraph_v⟩
  refine ⟨t, u, v, hrun, hu, hv, fun honly => ?_, fun honly => ?_⟩
  · rw [hgraph_u] at honly
    exact hold (honly.classes "C" _ hnew)
  · rw [hgraph_v] at honly
    have hkept := honly.declared _ _ ⟨_, Or.inl hedge⟩ hknown
    exact absurd (hkept.symm.trans hlost) (by simp)

end JavaDeps
