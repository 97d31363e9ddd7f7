import JavaDeps.Proofs.Selection.Filter
import JavaDeps.Selection.Labels

/-!
# Calls reduced to labels

The calls of an analysis are reduced to the labels that mention a name before they are selected. The
file compares what a selection shows then with what it shows of all calls.
-/

namespace JavaDeps

/-! ## Reduced calls -/

def mentioned (names : List String) (e : Edge) : Option (List String) :=
  if e.names.filter (keepsLabel names) = [] then none
  else some (e.names.filter (keepsLabel names))

/-- The labels that mention a name are those kept, and there are some. -/
theorem eq_of_mentioned {names texts : List String} {e : Edge}
    (h : mentioned names e = some texts) :
    texts = e.names.filter (keepsLabel names) ∧ texts ≠ [] := by
  unfold mentioned at h
  split at h
  · cases h
  · rename_i hne
    cases h
    exact ⟨rfl, hne⟩

theorem mentioned_ne_nil {names texts : List String} {e : Edge}
    (h : mentioned names e = some texts) :
    texts ≠ [] :=
  (eq_of_mentioned h).2

theorem sublist_of_mentioned {names texts : List String} {e : Edge}
    (h : mentioned names e = some texts) : texts.Sublist e.names := by
  rw [(eq_of_mentioned h).1]
  exact List.filter_sublist

theorem keepsLabel_of_mentioned {names texts : List String} {e : Edge}
    (h : mentioned names e = some texts) : ∀ label ∈ texts, keepsLabel names label = true := by
  intro label hlabel
  rw [(eq_of_mentioned h).1] at hlabel
  exact (List.mem_filter.1 hlabel).2

namespace Graph

/-- Of a list of texts, those that mention a name are kept. -/
theorem labelsKept_ofNames (names texts : List String) :
    labelsKept names (Value.ofNames texts) = .ok (texts.filter (keepsLabel names)) := by
  have hmap : ∀ texts : List String,
      (texts.map Value.str).mapM (Value.textFor "lower") = .ok texts := by
    intro texts
    induction texts with
    | nil => rfl
    | cons text rest ih =>
      rw [List.map_cons, List.mapM_cons, ih]
      rfl
  have helements : (Value.ofNames texts).elements = .ok (texts.map Value.str) := rfl
  rw [labelsKept, helements]
  show ((texts.map Value.str).mapM (Value.textFor "lower") >>= _) = _
  rw [hmap]
  rfl

/-- An edge with texts is entered with those that mention a name, if any. -/
theorem filterEdge_eq (names : List String) (source target : SourcePath) {l : Labels}
    {texts : List String} (hl : l.value = Value.ofNames texts)
    (kept : Table SourcePath (Targets SourcePath)) :
    filterEdge names source kept (target, l) =
      .ok ((relabelEdges (mentioned names) [⟨source, target, texts⟩]).foldl enterEdge kept) := by
  rw [filterEdge, hl, labelsKept_ofNames]
  simp only [bind, Except.bind]
  by_cases hnone : texts.filter (keepsLabel names) = []
  · have hmentioned : mentioned names ⟨source, target, texts⟩ = none := if_pos hnone
    simp only [relabelEdges, List.filterMap_cons, hmentioned, hnone]
    rfl
  · have hmentioned : mentioned names ⟨source, target, texts⟩ =
        some (texts.filter (keepsLabel names)) := if_neg hnone
    simp only [relabelEdges, List.filterMap_cons, hmentioned, List.isEmpty_iff, hnone, if_false]
    rfl

theorem filterRow_eq (names : List String) (source : SourcePath)
    {row : List (SourcePath × Labels)}
    (htexts : ∀ x ∈ row, ∃ texts, x.2.value = Value.ofNames texts)
    (kept : Table SourcePath (Targets SourcePath)) :
    row.foldlM (filterEdge names source) kept =
      .ok ((relabelEdges (mentioned names) (rowEdges source row)).foldl enterEdge kept) := by
  induction row generalizing kept with
  | nil => rfl
  | cons x rest ih =>
    rcases x with ⟨target, l⟩
    rcases htexts (target, l) List.mem_cons_self with ⟨texts, hl⟩
    have hsplit : rowEdges source ((target, l) :: rest) =
        [⟨source, target, texts⟩] ++ rowEdges source rest := by
      rw [rowEdges, List.map_cons, Labels.names_of_value hl]
      rfl
    rw [List.foldlM_cons, filterEdge_eq names source target hl, hsplit, relabelEdges_append,
      List.foldl_append]
    exact ih (fun x hx => htexts x (List.mem_cons_of_mem _ hx)) _

/-- Reduced calls are in order. -/
theorem callsIn_mentioned (calls : Table SourcePath (Targets SourcePath)) (names : List String) :
    CallsIn (fun _ => True) (keepRows (mentioned names) calls) :=
  CallsIn.of_keepRows (fun _ _ => ⟨trivial, fun _ _ => trivial⟩)
    (fun _ _ _ => mentioned_ne_nil)

/-- Reduced calls are the edges with the texts that stay. -/
theorem filterLabels_eq {calls : Table SourcePath (Targets SourcePath)} (h : TextCalls calls)
    (names : List String) :
    filterLabels names calls = .ok (keepRows (mentioned names) calls) := by
  have hrows : ∀ entries : List (SourcePath × Targets SourcePath),
      (∀ e ∈ entries, e ∈ calls.entries) →
      ∀ kept, entries.foldlM
        (fun kept e => e.2.entries.foldlM (filterEdge names e.1) kept) kept =
        .ok ((relabelEdges (mentioned names)
          (entries.flatMap (fun e => rowEdges e.1 e.2.entries))).foldl enterEdge kept) := by
    intro entries hentries
    induction entries with
    | nil => intro kept; rfl
    | cons e rest ih =>
      intro kept
      rw [List.foldlM_cons, filterRow_eq names e.1 (h e (hentries e List.mem_cons_self)),
        List.flatMap_cons, relabelEdges_append, List.foldl_append]
      exact ih (fun e' he' => hentries e' (List.mem_cons_of_mem _ he')) _
  rw [filterLabels, hrows calls.entries (fun _ he => he),
    ← (callsIn_mentioned calls names).foldl_enterEdge, edgesOf_keepRows]
  rfl

end Graph

/-! ## Selections of reduced calls -/

/-- A rule that keeps some of the texts on an edge. It goes by the texts one by one: with fewer
texts on the edge, what it kept before it keeps again, as far as it is there. -/
structure Selects (kept : Edge → Option (List String)) : Prop where
  subset : ∀ {e names}, kept e = some names → ∀ label ∈ names, label ∈ e.names
  ne_nil : ∀ {e names}, e.names ≠ [] → kept e = some names → names ≠ []
  of_none : ∀ {e} (p : String → Bool), kept e = none →
    kept { e with names := e.names.filter p } = none
  of_all : ∀ {e names} (p : String → Bool), kept e = some names →
    (∀ label ∈ names, p label = true) → kept { e with names := e.names.filter p } = some names
  of_mem : ∀ {e names} (p : String → Bool), kept e = some names →
    ∀ label ∈ names, p label = true →
    ∃ names', kept { e with names := e.names.filter p } = some names' ∧ label ∈ names'

theorem selects_all : Selects (fun e => some e.names) where
  subset h label hlabel := by rwa [Option.some.inj h]
  ne_nil he h := by rwa [← Option.some.inj h]
  of_none p h := by cases h
  of_all p h hall := by
    rw [← Option.some.inj h] at hall ⊢
    rw [List.filter_eq_self.2 hall]
  of_mem p h label hlabel hp := by
    rw [← Option.some.inj h] at hlabel
    exact ⟨_, rfl, List.mem_filter.2 ⟨hlabel, hp⟩⟩

section

variable {kept : Edge → Option (List String)} (hkept : Selects kept) (names : List String)

include hkept

/-- What is kept of an edge once it is reduced to the texts that mention a name. -/
theorem Selects.mem_mentioned {e : Edge} {texts : List String}
    (h : kept e = some texts) (label : String) (hlabel : label ∈ texts) :
    (∃ texts', (mentioned names e).bind (fun reduced => kept { e with names := reduced }) =
      some texts' ∧ label ∈ texts') ↔ keepsLabel names label = true := by
  constructor
  · rintro ⟨texts', hbind, hmem⟩
    rcases Option.bind_eq_some_iff.1 hbind with ⟨reduced, hreduced, hkept'⟩
    exact keepsLabel_of_mentioned hreduced label (hkept.subset hkept' label hmem)
  · intro hkeeps
    rcases hkept.of_mem (keepsLabel names) h label hlabel hkeeps with ⟨texts', htexts', hmem⟩
    have hne : e.names.filter (keepsLabel names) ≠ [] :=
      List.ne_nil_of_mem (List.mem_filter.2 ⟨hkept.subset h label hlabel, hkeeps⟩)
    exact ⟨texts', by rw [mentioned, if_neg hne]; exact htexts', hmem⟩

/-- A selection of the reduced calls shows the same if and only if every text that the selection of
all calls shows mentions a name. -/
theorem Selects.relabelEdges_mentioned_iff {edges : List Edge}
    (hedges : ∀ e ∈ edges, e.names ≠ []) :
    relabelEdges kept (relabelEdges (mentioned names) edges) = relabelEdges kept edges ↔
      ∀ e ∈ relabelEdges kept edges, ∀ label ∈ e.names, keepsLabel names label = true := by
  constructor
  · intro heq e he label hlabel
    rw [← heq] at he
    rcases mem_relabelEdges.1 he with ⟨reduced, hreduced, hkept'⟩
    rcases mem_relabelEdges.1 hreduced with ⟨texts, -, hmentioned⟩
    exact keepsLabel_of_mentioned hmentioned label (hkept.subset hkept' label hlabel)
  · intro hall
    rw [relabelEdges_relabelEdges]
    refine relabelEdges_congr (fun e he => ?_)
    -- What is not shown of an edge is not shown of fewer texts; what is shown mentions a name.
    cases h : kept e with
    | none =>
      unfold mentioned
      split
      · rfl
      · exact hkept.of_none (keepsLabel names) h
    | some texts =>
      have htexts : ∀ label ∈ texts, keepsLabel names label = true :=
        hall { e with names := texts } (mem_relabelEdges.2 ⟨e.names, he, h⟩)
      have hne : e.names.filter (keepsLabel names) ≠ [] := by
        rcases List.exists_mem_of_ne_nil _ (hkept.ne_nil (hedges e he) h) with ⟨label, hlabel⟩
        exact List.ne_nil_of_mem
          (List.mem_filter.2 ⟨hkept.subset h label hlabel, htexts label hlabel⟩)
      rw [mentioned, if_neg hne]
      exact hkept.of_all (keepsLabel names) h htexts

end

/-! ## Selections by ids -/

namespace Graph

/-- Fewer labels are named by the calls as before. -/
theorem namedBy_filter (g : Graph) (calls : NameSet) (e : Edge) (p : String → Bool) :
    g.namedBy calls { e with names := e.names.filter p } = (g.namedBy calls e).filter p := by
  simp only [namedBy, List.filter_filter, Bool.and_comm]

/-- The labels kept by a restriction are selected one by one. -/
theorem selects_keptNames (g : Graph) (chosen calls : NameSet) :
    Selects (g.keptNames chosen calls) where
  subset {e names} h label hlabel := by
    rcases keptNames_eq_some_iff.1 h with ⟨-, rfl⟩ | ⟨-, -, rfl⟩
    · exact (List.mem_filter.1 hlabel).1
    · exact hlabel
  ne_nil := keptNames_ne_nil
  of_none {e} p h := by
    unfold keptNames at h ⊢
    split at h
    · cases h
    · rename_i hnamed
      split at h
      · cases h
      · rename_i hboth
        rw [namedBy_filter, Decidable.not_not.1 hnamed, List.filter_nil]
        simp [hboth]
  of_all {e names} p h hall := by
    rw [keptNames_eq_some_iff, namedBy_filter]
    rcases keptNames_eq_some_iff.1 h with ⟨hnamed, rfl⟩ | ⟨hnamed, hboth, rfl⟩
    · rw [List.filter_eq_self.2 hall]
      exact Or.inl ⟨hnamed, rfl⟩
    · rw [hnamed]
      exact Or.inr ⟨rfl, hboth, List.filter_eq_self.2 hall⟩
  of_mem {e names} p h label hlabel hp := by
    simp only [keptNames_eq_some_iff, namedBy_filter]
    rcases keptNames_eq_some_iff.1 h with ⟨-, rfl⟩ | ⟨hnamed, hboth, rfl⟩
    · have hmem : label ∈ (g.namedBy calls e).filter p := List.mem_filter.2 ⟨hlabel, hp⟩
      exact ⟨_, Or.inl ⟨List.ne_nil_of_mem hmem, rfl⟩, hmem⟩
    · rw [hnamed]
      exact ⟨_, Or.inr ⟨rfl, hboth, rfl⟩, List.mem_filter.2 ⟨hlabel, hp⟩⟩

def keptBy (g : Graph) (ids : List String) (e : Edge) : Option (List String) :=
  if keepsAll (Choice.ofIds ids).classes.size g.classes.size then some e.names
  else g.keptNames (Choice.ofIds ids).classes (Choice.ofIds ids).calls e

/-- The labels kept by ids are selected one by one. -/
theorem selects_keptBy (g : Graph) (ids : List String) : Selects (g.keptBy ids) := by
  by_cases hall : keepsAll (Choice.ofIds ids).classes.size g.classes.size = true
  · have heq : g.keptBy ids = fun e => some e.names := funext (fun e => if_pos hall)
    rw [heq]
    exact selects_all
  · have heq : g.keptBy ids = g.keptNames (Choice.ofIds ids).classes (Choice.ofIds ids).calls :=
      funext (fun e => if_neg hall)
    rw [heq]
    exact selects_keptNames g _ _

/-- A selection relabels the edges. -/
theorem edgesOf_filtered (g : Graph) {ids : List String} (hids : ids ≠ []) :
    edgesOf (g.filtered ids).calls = relabelEdges (g.keptBy ids) (edgesOf g.calls) := by
  unfold filtered keptBy
  rw [if_neg hids]
  split
  · simp only [relabelEdges, Option.map_some]
    exact List.filterMap_some.symm
  · exact edgesOf_restricted _ _

def narrowed (g : Graph) (names : List String) : Graph :=
  { g with calls := keepRows (mentioned names) g.calls }

variable {inside : SourcePath → Prop}

/-- Narrowing a graph keeps its calls in place. -/
theorem narrowed_callsIn {g : Graph} (h : CallsIn inside g.calls) (names : List String) :
    CallsIn inside (g.narrowed names).calls :=
  h.keepRows (fun _ _ _ => mentioned_ne_nil)

/-- After narrowing, a selection relabels the edges that are left. -/
theorem edgesOf_filtered_narrowed (g : Graph) (names : List String) {ids : List String}
    (hids : ids ≠ []) : edgesOf ((g.narrowed names).filtered ids).calls =
      relabelEdges (g.keptBy ids) (relabelEdges (mentioned names) (edgesOf g.calls)) := by
  rw [edgesOf_filtered _ hids, narrowed, edgesOf_keepRows]
  rfl

/-- Selections of the graph and of the reduced graph show the same classes, files and calls. -/
structure SameTables (g g' : Graph) : Prop where
  classes : g.classes = g'.classes
  declared : g.declared = g'.declared
  calls : g.calls = g'.calls

/-- Where a selection shows the same edges of both graphs, it shows the same altogether. -/
theorem sameTables_filtered_narrowed {g : Graph} (h : CallsIn inside g.calls)
    (names : List String) {ids : List String}
    (hedges : edgesOf ((g.narrowed names).filtered ids).calls = edgesOf (g.filtered ids).calls) :
    ((g.narrowed names).filtered ids).SameTables (g.filtered ids) := by
  -- A table of an analysis is determined by the list of its edges.
  have hcalls : ((g.narrowed names).filtered ids).calls = (g.filtered ids).calls := by
    rw [← (filtered_callsIn (narrowed_callsIn h names) ids).foldl_enterEdge, hedges,
      (filtered_callsIn h ids).foldl_enterEdge]
  by_cases hwhole : g.KeepsWhole ids
  · have hwhole' : (g.narrowed names).KeepsWhole ids := hwhole
    rcases filtered_of_keepsWhole hwhole with hg | hg <;>
      rcases filtered_of_keepsWhole hwhole' with hn | hn <;> rw [hg, hn] at hcalls ⊢ <;>
      exact ⟨rfl, rfl, hcalls⟩
  · have hwhole' : ¬ (g.narrowed names).KeepsWhole ids := hwhole
    rw [filtered_of_not_keepsWhole hwhole, filtered_of_not_keepsWhole hwhole'] at hcalls hedges ⊢
    rw [edgesOf_restricted, edgesOf_restricted] at hedges
    have hshown : (g.narrowed names).shown (Choice.ofIds ids).classes (Choice.ofIds ids).calls =
        g.shown (Choice.ofIds ids).classes (Choice.ofIds ids).calls := by
      unfold shown
      rw [hedges]
      rfl
    exact ⟨congrArg Restriction.classes hshown, congrArg Restriction.declared hshown, hcalls⟩

/-- A selection shows the same of a graph and of the reduced graph if and only if every label that
it shows mentions a name. -/
theorem filtered_narrowed_iff {g : Graph} (h : CallsIn inside g.calls) (names : List String)
    {ids : List String} (hids : ids ≠ []) :
    ((g.narrowed names).filtered ids).SameTables (g.filtered ids) ↔
      ∀ e ∈ edgesOf (g.filtered ids).calls, ∀ label ∈ e.names, keepsLabel names label = true := by
  have hiff := (selects_keptBy g ids).relabelEdges_mentioned_iff names
    (fun e he => (h.of_mem_edgesOf he).2.2)
  rw [← edgesOf_filtered_narrowed g names hids, ← edgesOf_filtered g hids] at hiff
  rw [← hiff]
  exact ⟨fun hsame => congrArg edgesOf hsame.calls, sameTables_filtered_narrowed h names⟩

/-- A label that a selection shows is also shown of the reduced graph if and only if it mentions a
name. -/
theorem mem_names_filtered_narrowed {g : Graph} (h : CallsIn inside g.calls) (names : List String)
    {ids : List String} (hids : ids ≠ []) {source target : SourcePath} {label : String}
    (hlabel : label ∈ (g.filtered ids).names source target) :
    label ∈ ((g.narrowed names).filtered ids).names source target ↔
      keepsLabel names label = true := by
  rw [(filtered_callsIn h ids).mem_names, edgesOf_filtered g hids] at hlabel
  rcases hlabel with ⟨shown, hshown, hlabel⟩
  rcases mem_relabelEdges.1 hshown with ⟨texts, htexts, hkept⟩
  rw [← (selects_keptBy g ids).mem_mentioned names hkept label hlabel,
    (filtered_callsIn (narrowed_callsIn h names) ids).mem_names,
    edgesOf_filtered_narrowed g names hids, relabelEdges_relabelEdges]
  refine exists_congr (fun shown' => and_congr_left (fun _ => ?_))
  rw [mem_relabelEdges]
  constructor
  · -- Between two files there is one edge, so the texts are those that were found above.
    rintro ⟨texts', htexts', hkept'⟩
    rwa [h.edge_unique htexts' htexts rfl rfl] at hkept'
  · exact fun hkept' => ⟨texts, htexts, hkept'⟩

/-- The label of a chosen call is shown. -/
theorem mem_names_filtered_of_chosen {g : Graph} (h : CallsIn inside g.calls) {ids : List String}
    (hids : ids ≠ []) {source target : SourcePath} {label : String}
    (hlabel : label ∈ g.names source target)
    (hcall : (Choice.ofIds ids).calls.contains (g.callText source target label) = true) :
    label ∈ (g.filtered ids).names source target := by
  rw [h.mem_names] at hlabel
  rcases hlabel with ⟨texts, htexts, hlabel⟩
  rw [(filtered_callsIn h ids).mem_names, edgesOf_filtered g hids]
  have hnamed : label ∈ g.namedBy (Choice.ofIds ids).calls ⟨source, target, texts⟩ :=
    List.mem_filter.2 ⟨hlabel, hcall⟩
  have hkept : ∃ shown, g.keptBy ids ⟨source, target, texts⟩ = some shown ∧ label ∈ shown := by
    unfold keptBy keptNames
    split
    · exact ⟨texts, rfl, hlabel⟩
    · exact ⟨_, if_pos (List.ne_nil_of_mem hnamed), hnamed⟩
  rcases hkept with ⟨shown, hshown, hmem⟩
  exact ⟨shown, mem_relabelEdges.2 ⟨texts, htexts, hshown⟩, hmem⟩

end Graph

end JavaDeps
