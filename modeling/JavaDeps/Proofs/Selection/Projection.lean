import Mathlib.Data.List.Forall2
import JavaDeps.Proofs.Analysis.Selected
import JavaDeps.Proofs.Selection.Labels

/-!
# Reducing calls again

Calls that were reduced to the labels that mention a name can be reduced again, by the same names or
by others.
-/

namespace JavaDeps

/-! ## Labels that are kept twice -/

/-- A label is kept by two lists if it is kept by one of them. -/
theorem keepsLabel_append (first second : List String) (label : String) :
    keepsLabel (first ++ second) label = (keepsLabel first label || keepsLabel second label) := by
  unfold keepsLabel
  rw [List.any_append]
  cases isStructural label <;> simp

/-- On an edge that is reduced twice, the texts stay that both selections keep. -/
theorem mentioned_bind (first second : List String) (e : Edge) :
    (mentioned first e).bind (fun names => mentioned second { e with names := names }) =
      if e.names.filter (fun label => keepsLabel second label && keepsLabel first label) = []
      then none
      else some
        (e.names.filter (fun label => keepsLabel second label && keepsLabel first label)) := by
  rw [← List.filter_filter]
  unfold mentioned
  by_cases h : e.names.filter (keepsLabel first) = []
  · simp [h]
  · rw [if_neg h, Option.bind_some]

namespace Graph

/-- The graph after a selection of labels. Without names nothing is reduced. -/
def reduced (g : Graph) (names : List String) : Graph := if names = [] then g else g.narrowed names

/-- Reducing twice by the same names is reducing once. -/
theorem reduced_reduced_self (g : Graph) (names : List String) :
    (g.reduced names).reduced names = g.reduced names := by
  unfold reduced
  by_cases hnames : names = []
  · simp [hnames]
  · simp only [hnames, if_false, narrowed, keepRows_keepRows, mentioned_bind, Bool.and_self]
    rfl

/-- Reductions can be made in either order. -/
theorem reduced_comm (g : Graph) (first second : List String) :
    (g.reduced first).reduced second = (g.reduced second).reduced first := by
  unfold reduced
  by_cases hfirst : first = []
  · simp [hfirst]
  · by_cases hsecond : second = []
    · simp [hsecond]
    · simp only [hfirst, hsecond, if_false, narrowed, keepRows_keepRows, mentioned_bind,
        fun label => Bool.and_comm (keepsLabel first label)]

theorem textCalls_reduced {g : Graph} (h : TextCalls g.calls) (names : List String) :
    TextCalls (g.reduced names).calls := by
  unfold reduced
  split
  · exact h
  · exact (callsIn_mentioned g.calls names).textCalls

/-- A label is left exactly if it was there and mentions a name. -/
theorem mem_names_narrowed {g : Graph} {names : List String}
    {source target : SourcePath} {label : String} :
    label ∈ (g.narrowed names).names source target ↔
      (∃ texts, ⟨source, target, texts⟩ ∈ edgesOf g.calls ∧ label ∈ texts) ∧
        keepsLabel names label = true := by
  have hcalls : CallsIn (fun _ => True) (g.narrowed names).calls := callsIn_mentioned g.calls names
  rw [hcalls.mem_names, narrowed, edgesOf_keepRows]
  constructor
  · rintro ⟨kept, hkept, hlabel⟩
    rcases mem_relabelEdges.1 hkept with ⟨texts, htexts, hmentioned⟩
    have hmem := (sublist_of_mentioned hmentioned).subset hlabel
    exact ⟨⟨texts, htexts, hmem⟩, keepsLabel_of_mentioned hmentioned label hlabel⟩
  · rintro ⟨⟨texts, htexts, hlabel⟩, hkeeps⟩
    have hmem : label ∈ texts.filter (keepsLabel names) := List.mem_filter.2 ⟨hlabel, hkeeps⟩
    have hmentioned : mentioned names ⟨source, target, texts⟩ =
        some (texts.filter (keepsLabel names)) :=
      if_neg (List.ne_nil_of_mem hmem)
    exact ⟨_, mem_relabelEdges.2 ⟨texts, htexts, hmentioned⟩, hmem⟩

end Graph

/-! ## Parts of a table -/

/-- The table has a part of the sources of another one, for each of them a part of its targets, and
on each edge a part of its texts, all in the same order. -/
def PartOf (kept calls : Table SourcePath (Targets SourcePath)) : Prop :=
  List.SublistForall₂ (fun e' e => e'.1 = e.1 ∧
    List.SublistForall₂ (fun x' x => x'.1 = x.1 ∧ x'.2.names.Sublist x.2.names)
      e'.2.entries e.2.entries) kept.entries calls.entries

theorem sublistForall₂_filterMap {α β : Type} {R : β → α → Prop} {f : α → Option β}
    (h : ∀ x y, f x = some y → R y x) (xs : List α) :
    List.SublistForall₂ R (xs.filterMap f) xs := by
  induction xs with
  | nil => exact .nil
  | cons x rest ih =>
    cases hx : f x with
    | none =>
      rw [List.filterMap_cons_none hx]
      exact .cons_right ih
    | some y =>
      rw [List.filterMap_cons_some hx]
      exact .cons (h x y hx) ih

/-- Keeping some labels of some rows gives a part of the calls. -/
theorem partOf_keepRows {f : Edge → Option (List String)}
    (hf : ∀ {e names}, f e = some names → names.Sublist e.names)
    (calls : Table SourcePath (Targets SourcePath)) : PartOf (keepRows f calls) calls := by
  refine sublistForall₂_filterMap (fun e e' he => ?_) calls.entries
  rcases Option.map_eq_some_iff.1 he with ⟨row, hrow, rfl⟩
  dsimp only at hrow
  split at hrow
  · cases hrow
  · cases hrow
    refine ⟨rfl, sublistForall₂_filterMap (fun x x' hx => ?_) e.2.entries⟩
    rw [Option.map_map] at hx
    rcases Option.map_eq_some_iff.1 hx with ⟨names, hnames, rfl⟩
    refine ⟨rfl, ?_⟩
    rw [Function.comp_apply, Labels.names_ofNames]
    exact hf hnames

theorem partOf_reduced (g : Graph) (names : List String) :
    PartOf (g.reduced names).calls g.calls := by
  unfold Graph.reduced
  split
  · have hsame : ∀ {α : Type} {R : α → α → Prop}, (∀ x, R x x) → ∀ xs,
        List.SublistForall₂ R xs xs :=
      fun h xs => List.sublistForall₂_iff.2
        ⟨xs, List.forall₂_same.2 (fun x _ => h x), List.Sublist.refl xs⟩
    exact hsame (fun e => ⟨rfl, hsame (fun x => ⟨rfl, List.Sublist.refl _⟩) _⟩) _
  · exact partOf_keepRows sublist_of_mentioned g.calls

/-! ## Selections of a session -/

/-- The selection of calls reduces the graph, if the labels are texts. -/
theorem filterCalls_arrives {s : Session} (hcalls : TextCalls s.project.graph.calls)
    (names : List String) : Arrives (filterCalls (Value.ofNames names)) s
      { s.project with graph := s.project.graph.reduced names } := by
  by_cases hnames : names = []
  · subst hnames
    exact Arrives.nothing s
  · have htruthy : (Value.ofNames names).isTruthy = true := by
      simpa [Value.ofNames, Value.isTruthy] using hnames
    unfold filterCalls Graph.reduced
    rw [htruthy, texts_ofNames, if_neg hnames]
    refine Leads.bind (Leads.of_run (orFail_ok_run names s) ?_)
    refine Leads.bind (Leads.of_run (say_run _ s) ?_)
    refine Leads.bind (Leads.of_run (x := s.project.graph) (theGraph_run _) ?_)
    rw [Graph.filterLabels_eq hcalls]
    refine Leads.bind (Leads.of_run (orFail_ok_run _ _) ?_)
    refine Leads.bind (Leads.of_run (modifyGraph_run _ _) ?_)
    refine Leads.bind (Leads.of_run (theGraph_run _) ?_)
    exact Leads.of_run (say_run _ _) ⟨rfl, rfl⟩

theorem filterCalls_twice_arrives {s : Session} (hcalls : TextCalls s.project.graph.calls)
    (first second : List String) :
    Arrives (do filterCalls (Value.ofNames first); filterCalls (Value.ofNames second)) s
      { s.project with graph := (s.project.graph.reduced first).reduced second } := by
  refine Arrives.bind (filterCalls_arrives hcalls first) (fun t _ hproject => ?_)
  have hcalls' : TextCalls t.project.graph.calls := by
    rw [hproject]
    exact Graph.textCalls_reduced hcalls first
  have hsecond := filterCalls_arrives hcalls' second
  rwa [hproject] at hsecond

/-- Selections of labels are projections. Where the edges carry texts, a selection by names succeeds
and leaves a part of the calls, in their order, and nothing else changes. To select by the same
names again changes nothing, and of two selections it does not matter which comes first. A selection
by the names of two lists that are not empty keeps the labels on an edge that a selection by one of
them keeps. -/
theorem label_selection_projects {s : Session} (hcalls : TextCalls s.project.graph.calls)
    (first second : List String) :
    ∃ one other both joint,
      Arrives (filterCalls (Value.ofNames first)) s one ∧
      Arrives (do filterCalls (Value.ofNames first); filterCalls (Value.ofNames first)) s one ∧
      (one = { s.project with graph := { s.project.graph with calls := one.graph.calls } } ∧
        PartOf one.graph.calls s.project.graph.calls) ∧
      Arrives (do filterCalls (Value.ofNames first); filterCalls (Value.ofNames second)) s both ∧
      Arrives (do filterCalls (Value.ofNames second); filterCalls (Value.ofNames first)) s both ∧
      Arrives (filterCalls (Value.ofNames second)) s other ∧
      Arrives (filterCalls (Value.ofNames (first ++ second))) s joint ∧
      (first ≠ [] → second ≠ [] → ∀ source target label,
        label ∈ joint.graph.names source target ↔
          label ∈ one.graph.names source target ∨ label ∈ other.graph.names source target) := by
  -- All of these runs arrive at reductions of the graph, so the laws are laws of reductions.
  have hself := filterCalls_twice_arrives hcalls first first
  rw [Graph.reduced_reduced_self] at hself
  have hswapped := filterCalls_twice_arrives hcalls second first
  rw [Graph.reduced_comm] at hswapped
  refine ⟨_, _, _, _, filterCalls_arrives hcalls first, hself,
    ⟨?_, partOf_reduced s.project.graph first⟩,
      filterCalls_twice_arrives hcalls first second, hswapped,
    filterCalls_arrives hcalls second, filterCalls_arrives hcalls (first ++ second), ?_⟩
  · unfold Graph.reduced
    split <;> rfl
  · intro hfirst hsecond source target label
    have hjoint : first ++ second ≠ [] := fun h => hfirst (List.append_eq_nil_iff.1 h).1
    simp only [Graph.reduced, if_neg hfirst, if_neg hsecond, if_neg hjoint,
      Graph.mem_names_narrowed, keepsLabel_append, Bool.or_eq_true, and_or_left]

/-- A session with a table that has an edge without texts and a source without edges. -/
def sparseCalls : Session :=
  let file : String → SourcePath := fun name => SourcePath.ofText (name ++ ".java")
  let calls : Table SourcePath (Targets SourcePath) :=
    .mk [(file "A",
      .mk [(file "B", Labels.ofNames ["save", "load"]), (file "C", Labels.ofNames [])]),
      (file "B", Table.empty)]
  let start := Session.ofDisk default
  { start with project := { start.project with graph := { start.project.graph with calls } } }

theorem sparseCalls_selected_twice :
    ∃ one other joint,
      Arrives (do filterCalls (Value.ofNames ["save"]); filterCalls (Value.ofNames ["save"]))
        sparseCalls one ∧
      PartOf one.graph.calls sparseCalls.project.graph.calls ∧
      Arrives (filterCalls (Value.ofNames ["load"])) sparseCalls other ∧
      Arrives (filterCalls (Value.ofNames ["save", "load"])) sparseCalls joint ∧
      "load" ∉ one.graph.names ⟨"", ["A.java"]⟩ ⟨"", ["B.java"]⟩ ∧
      "load" ∈ other.graph.names ⟨"", ["A.java"]⟩ ⟨"", ["B.java"]⟩ ∧
      "load" ∈ joint.graph.names ⟨"", ["A.java"]⟩ ⟨"", ["B.java"]⟩ := by
  have hcalls : TextCalls sparseCalls.project.graph.calls := by
    unfold TextCalls
    simp only [sparseCalls, List.forall_mem_cons]
    exact ⟨⟨⟨_, rfl⟩, ⟨_, rfl⟩, by simp⟩, by simp, by simp⟩
  rcases label_selection_projects hcalls ["save"] ["load"] with
    ⟨one, other, _, joint, hone, htwice, ⟨-, hpart⟩, -, -, hother, hjoint, hunion⟩
  have hnames : (filterCalls (Value.ofNames ["save"]) sparseCalls).2.project.graph.names
        ⟨"", ["A.java"]⟩ ⟨"", ["B.java"]⟩ = ["save"] ∧
      (filterCalls (Value.ofNames ["load"]) sparseCalls).2.project.graph.names
        ⟨"", ["A.java"]⟩ ⟨"", ["B.java"]⟩ = ["load"] := by decide +kernel
  rw [hone.project_eq, hother.project_eq] at hnames
  have hload : "load" ∈ other.graph.names ⟨"", ["A.java"]⟩ ⟨"", ["B.java"]⟩ := by simp [hnames.2]
  refine ⟨one, other, joint, htwice, hpart, hother, hjoint, by simp [hnames.1], hload, ?_⟩
  exact (hunion (by simp) (by simp) _ _ _).2 (Or.inr hload)

end JavaDeps
