import JavaDeps.Proofs.Calls

/-!
# Edges as a list

A table of calls is read as the list of its edges, and selections are described by what they make of
this list.

The file defines:
- `Arc`, an edge with whatever labels, and `arcsOf`, those of a table in the order of its rows, with
  `foldl_enterArc`, by which a table is put together from them;
- `Edge`, an edge with texts as labels, and `edgesOf`, those of a table;
- `enterEdge`, by which a table is put together from its edges;
- `relabelEdges`, which gives edges other texts or leaves them out, and `keepRows`, the table that
  results.
-/

namespace JavaDeps

/-! ## Tables put together entry by entry -/

namespace Table

variable {α β : Type} [BEq α] [LawfulBEq α]

/-- Entries with other keys are passed by. -/
theorem setIn_append {k : α} {entries : List (α × β)} (h : k ∉ entries.map Prod.fst) (v : β)
    (rest : List (α × β)) : setIn k v (entries ++ rest) = entries ++ setIn k v rest := by
  induction entries with
  | nil => rfl
  | cons e more ih =>
    have he : ¬ e.1 = k := fun he => h (by simp [he])
    have hmore : k ∉ more.map Prod.fst :=
      fun hk => h (by simp only [List.map_cons]; exact .tail _ hk)
    simp [setIn, he, ih hmore]

/-- A new key goes to the end. -/
theorem entries_set_new {t : Table α β} {k : α} (h : k ∉ t.keys) (v : β) :
    (t.set k v).entries = t.entries ++ [(k, v)] := by
  have hset := setIn_append h v []
  rwa [List.append_nil] at hset

/-- Writing to the last key of a table. -/
theorem entries_alter_last {t : Table α β} {entries : List (α × β)} {k : α} {v : β}
    (ht : t.entries = entries ++ [(k, v)]) (init : β) (f : β → β) :
    (t.alter k init f).entries = entries ++ [(k, f v)] := by
  have hget : t.getD k init = v := by
    rw [getD, get?_of_mem (v := v) (by simp [ht]), Option.getD_some]
  have hnew : k ∉ entries.map Prod.fst := by
    intro hmem
    have hnodup := t.nodup_keys
    rw [keys, ht, List.map_append] at hnodup
    exact (List.nodup_append.1 hnodup).2.2 k hmem k (by simp) rfl
  simp only [alter, hget, set, ht, setIn_append hnew]
  simp [setIn]

end Table

section

variable {α β γ : Type}

/-- Entries that are kept or changed under their keys. -/
theorem map_fst_filterMap_sublist (f : α → β → Option γ) (entries : List (α × β)) :
    ((entries.filterMap (fun e => (f e.1 e.2).map (Prod.mk e.1))).map Prod.fst).Sublist
      (entries.map Prod.fst) := by
  induction entries with
  | nil => simp
  | cons e rest ih =>
    cases he : f e.1 e.2 with
    | none =>
      rw [List.filterMap_cons_none (by simp [he])]
      exact ih.cons _
    | some v =>
      rw [List.filterMap_cons_some (by simp [he]; rfl), List.map_cons, List.map_cons]
      exact ih.cons_cons _

/-- The table with the values that `f` gives to the keys; those without an answer are left out. -/
def Table.choose [BEq α] (f : α → β → Option γ) (t : Table α β) : Table α γ :=
  ⟨t.entries.filterMap (fun e => (f e.1 e.2).map (Prod.mk e.1)),
    t.distinct.sublist (map_fst_filterMap_sublist f t.entries)⟩

theorem Table.entries_choose [BEq α] (f : α → β → Option γ) (t : Table α β) :
    (t.choose f).entries = t.entries.filterMap (fun e => (f e.1 e.2).map (Prod.mk e.1)) := rfl

end

/-! ## Arcs -/

/-- An edge between two files, with its labels. -/
structure Arc where
  source : SourcePath
  target : SourcePath
  labels : Labels

def rowArcs (source : SourcePath) (row : List (SourcePath × Labels)) : List Arc :=
  row.map (fun x => ⟨source, x.1, x.2⟩)

def arcsOf (calls : Table SourcePath (Targets SourcePath)) : List Arc :=
  calls.entries.flatMap (fun e => rowArcs e.1 e.2.entries)

def enterArc (calls : Table SourcePath (Targets SourcePath)) (a : Arc) :
    Table SourcePath (Targets SourcePath) :=
  calls.alter a.source Table.empty (fun row => row.set a.target a.labels)

/-- The edges from the file whose row is the last one. -/
theorem foldl_enterArc_row {source : SourcePath} {more : List (SourcePath × Labels)}
    {entries : List (SourcePath × Targets SourcePath)} {row' : Targets SourcePath}
    {row : Targets SourcePath} {t : Table SourcePath (Targets SourcePath)}
    (ht : t.entries = entries ++ [(source, row)]) (hrow : row'.entries = row.entries ++ more) :
    ((rowArcs source more).foldl enterArc t).entries = entries ++ [(source, row')] := by
  induction more generalizing row t with
  | nil =>
    rw [Table.ext (hrow.trans (List.append_nil _))]
    exact ht
  | cons x rest ih =>
    rcases x with ⟨target, l⟩
    have hnew : target ∉ row.keys := by
      intro hmem
      have hnodup := row'.nodup_keys
      rw [Table.keys, hrow, List.map_append] at hnodup
      exact (List.nodup_append.1 hnodup).2.2 target hmem target (by simp) rfl
    refine ih (Table.entries_alter_last ht Table.empty (fun row => row.set target l)) ?_
    rw [Table.entries_set_new hnew, hrow, List.append_assoc, List.singleton_append]

/-- The edges from a file that has no row yet. The first one opens the row. -/
theorem foldl_enterArc_new {source : SourcePath} {row : Targets SourcePath}
    {t : Table SourcePath (Targets SourcePath)} (hnew : source ∉ t.keys) (hrow : row.entries ≠ []) :
    ((rowArcs source row.entries).foldl enterArc t).entries = t.entries ++ [(source, row)] := by
  rcases List.exists_cons_of_ne_nil hrow with ⟨⟨target, l⟩, rest, hentries⟩
  have hnone : t.getD source Table.empty = Table.empty := by
    rw [Table.getD, Table.get?_eq_none_iff.2 hnew, Option.getD_none]
  have hfirst : (enterArc t ⟨source, target, l⟩).entries =
      t.entries ++ [(source, (Table.empty : Targets SourcePath).set target l)] := by
    rw [enterArc, Table.alter, hnone, Table.entries_set_new hnew]
  have hrest := foldl_enterArc_row hfirst hentries
  rwa [hentries]

/-- Rows for files that have none yet. -/
theorem foldl_enterArc_rows {t t' : Table SourcePath (Targets SourcePath)}
    {entries : List (SourcePath × Targets SourcePath)} (ht' : t'.entries = t.entries ++ entries)
    (h : ∀ e ∈ entries, e.2.entries ≠ []) :
    (entries.flatMap (fun e => rowArcs e.1 e.2.entries)).foldl enterArc t = t' := by
  induction entries generalizing t with
  | nil => exact (Table.ext (ht'.trans (List.append_nil _))).symm
  | cons e rest ih =>
    have hnew : e.1 ∉ t.keys := by
      intro hmem
      have hnodup := t'.nodup_keys
      rw [Table.keys, ht', List.map_append] at hnodup
      exact (List.nodup_append.1 hnodup).2.2 e.1 hmem e.1 (by simp) rfl
    rw [List.flatMap_cons, List.foldl_append]
    refine ih ?_ (fun e' he' => h e' (List.mem_cons_of_mem _ he'))
    rw [foldl_enterArc_new hnew (h e List.mem_cons_self), ht', List.append_assoc,
      List.singleton_append]

/-- A table without empty rows is put together from its edges. -/
theorem foldl_enterArc {calls : Table SourcePath (Targets SourcePath)}
    (h : ∀ e ∈ calls.entries, e.2.entries ≠ []) :
    (arcsOf calls).foldl enterArc Table.empty = calls :=
  foldl_enterArc_rows (List.nil_append _).symm h

/-! ## Edges -/

/-- An edge between two files, with the texts on it. -/
structure Edge where
  source : SourcePath
  target : SourcePath
  names : List String
  deriving DecidableEq

def rowEdges (source : SourcePath) (row : List (SourcePath × Labels)) : List Edge :=
  row.map (fun x => ⟨source, x.1, x.2.names⟩)

def edgesOf (calls : Table SourcePath (Targets SourcePath)) : List Edge :=
  calls.entries.flatMap (fun e => rowEdges e.1 e.2.entries)

def Edge.arc (e : Edge) : Arc := ⟨e.source, e.target, Labels.ofNames e.names⟩

def enterEdge (calls : Table SourcePath (Targets SourcePath)) (e : Edge) :
    Table SourcePath (Targets SourcePath) :=
  calls.alter e.source Table.empty (fun row => row.set e.target (Labels.ofNames e.names))

/-- Edges with the texts that `f` gives them; those without an answer are left out. -/
def relabelEdges (f : Edge → Option (List String)) (edges : List Edge) : List Edge :=
  edges.filterMap (fun e => (f e).map (fun names => { e with names := names }))

theorem relabelEdges_append (f : Edge → Option (List String)) (first rest : List Edge) :
    relabelEdges f (first ++ rest) = relabelEdges f first ++ relabelEdges f rest :=
  List.filterMap_append

/-- A relabelled edge is an edge with other texts. -/
theorem mem_relabelEdges {f : Edge → Option (List String)} {edges : List Edge} {e : Edge} :
    e ∈ relabelEdges f edges ↔ ∃ names, ⟨e.source, e.target, names⟩ ∈ edges ∧
      f ⟨e.source, e.target, names⟩ = some e.names := by
  simp only [relabelEdges, List.mem_filterMap, Option.map_eq_some_iff]
  constructor
  · rintro ⟨⟨source, target, names⟩, hmem, names', hf, rfl⟩
    exact ⟨names, hmem, hf⟩
  · rintro ⟨names, hmem, hf⟩
    exact ⟨_, hmem, e.names, hf, rfl⟩

theorem relabelEdges_congr {f f' : Edge → Option (List String)} {edges : List Edge}
    (h : ∀ e ∈ edges, f e = f' e) : relabelEdges f edges = relabelEdges f' edges := by
  induction edges with
  | nil => rfl
  | cons e rest ih =>
    have hrest := ih (fun e' he' => h e' (List.mem_cons_of_mem _ he'))
    simp only [relabelEdges, List.filterMap_cons, h e List.mem_cons_self] at hrest ⊢
    rw [hrest]

/-- Relabelling twice. -/
theorem relabelEdges_relabelEdges (f f' : Edge → Option (List String)) (edges : List Edge) :
    relabelEdges f' (relabelEdges f edges) =
      relabelEdges (fun e => (f e).bind (fun names => f' { e with names := names })) edges := by
  simp only [relabelEdges, List.filterMap_filterMap]
  congr 1
  funext e
  cases f e <;> rfl

/-! ## Rows -/

def keepRow (f : Edge → Option (List String)) (source : SourcePath) (row : Targets SourcePath) :
    Targets SourcePath :=
  row.choose (fun target l => (f ⟨source, target, l.names⟩).map Labels.ofNames)

/-- The table of calls after relabelling. Rows without an edge are left out. -/
def keepRows (f : Edge → Option (List String)) (calls : Table SourcePath (Targets SourcePath)) :
    Table SourcePath (Targets SourcePath) :=
  calls.choose (fun source row =>
    if (keepRow f source row).entries = [] then none else some (keepRow f source row))

theorem rowEdges_keepRow (f : Edge → Option (List String)) (source : SourcePath)
    (row : Targets SourcePath) :
    rowEdges source (keepRow f source row).entries =
      relabelEdges f (rowEdges source row.entries) := by
  simp only [rowEdges, keepRow, Table.choose, relabelEdges, List.map_filterMap, List.filterMap_map]
  congr 1
  funext x
  cases h : f ⟨source, x.1, x.2.names⟩ <;> simp [h]

/-- The edges of a relabelled table are its relabelled edges. -/
theorem edgesOf_keepRows (f : Edge → Option (List String))
    (calls : Table SourcePath (Targets SourcePath)) :
    edgesOf (keepRows f calls) = relabelEdges f (edgesOf calls) := by
  rcases calls with ⟨entries, distinct⟩
  simp only [edgesOf, keepRows, Table.choose]
  clear distinct
  induction entries with
  | nil => rfl
  | cons e rest ih =>
    rw [List.flatMap_cons, relabelEdges_append, ← ih, ← rowEdges_keepRow]
    by_cases hrow : (keepRow f e.1 e.2).entries = []
    · simp [hrow, rowEdges]
    · simp [hrow]

/-- Relabelling a table twice. -/
theorem keepRows_keepRows (f f' : Edge → Option (List String))
    (calls : Table SourcePath (Targets SourcePath)) :
    keepRows f' (keepRows f calls) =
      keepRows (fun e => (f e).bind (fun names => f' { e with names := names })) calls := by
  have hrow : ∀ source row, keepRow f' source (keepRow f source row) =
      keepRow (fun e => (f e).bind (fun names => f' { e with names := names })) source row := by
    intro source row
    refine Table.ext ?_
    simp only [keepRow, Table.choose, List.filterMap_filterMap]
    congr 1
    funext x
    cases f ⟨source, x.1, x.2.names⟩ <;> simp
  refine Table.ext ?_
  simp only [keepRows, Table.choose, List.filterMap_filterMap, ← hrow]
  congr 1
  funext e
  -- A row that lost all its edges is left out, and stays out.
  by_cases hkept : (keepRow f e.1 e.2).entries = []
  · have hnone : (keepRow f' e.1 (keepRow f e.1 e.2)).entries = [] := by
      rw [keepRow, Table.entries_choose, hkept]
      rfl
    simp [hkept, hnone]
  · simp [hkept]

/-! ## Tables of an analysis -/

namespace CallsIn

variable {inside : SourcePath → Prop} {calls : Table SourcePath (Targets SourcePath)}

/-- A row of a relabelled table is what is left of a row. -/
theorem mem_keepRows {f : Edge → Option (List String)} {e : SourcePath × Targets SourcePath}
    (he : e ∈ (keepRows f calls).entries) :
    ∃ row, (e.1, row) ∈ calls.entries ∧ e.2 = keepRow f e.1 row ∧ e.2.entries ≠ [] := by
  rcases List.mem_filterMap.1 he with ⟨⟨source, row⟩, hmem, heq⟩
  by_cases hrow : (keepRow f source row).entries = []
  · simp [hrow] at heq
  · simp only [hrow, if_false, Option.map_some, Option.some.injEq] at heq
    subst heq
    exact ⟨row, hmem, rfl, hrow⟩

theorem of_mem_edgesOf (h : CallsIn inside calls) {e : Edge} (he : e ∈ edgesOf calls) :
    inside e.source ∧ inside e.target ∧ e.names ≠ [] := by
  rcases List.mem_flatMap.1 he with ⟨⟨source, row⟩, hrow, he⟩
  rcases List.mem_map.1 he with ⟨⟨target, l⟩, hl, rfl⟩
  rcases h.labelled _ hrow _ hl with ⟨names, hne, hnames⟩
  have hnames' : l = Labels.ofNames names := hnames
  refine ⟨h.source_inside _ hrow, h.target_inside _ hrow _ hl, ?_⟩
  rwa [hnames', Labels.names_ofNames]

/-- Relabelling keeps a table in order, as long as no edge is left without texts. -/
theorem of_keepRows (hinside : ∀ e ∈ calls.entries, inside e.1 ∧ ∀ x ∈ e.2.entries, inside x.1)
    {f : Edge → Option (List String)}
    (hf : ∀ e ∈ edgesOf calls, ∀ names, f e = some names → names ≠ []) :
    CallsIn inside (JavaDeps.keepRows f calls) := by
  -- What is left of a row comes from its entries, with the texts that are kept of them.
  have hentry : ∀ {source : SourcePath} {row : Targets SourcePath}, (source, row) ∈ calls.entries →
      ∀ x ∈ (keepRow f source row).entries, ∃ l names, (x.1, l) ∈ row.entries ∧ names ≠ [] ∧
        x.2 = Labels.ofNames names := by
    intro source row hrow x hx
    rcases List.mem_filterMap.1 hx with ⟨⟨target, l⟩, hmem, heq⟩
    rw [Option.map_map] at heq
    rcases Option.map_eq_some_iff.1 heq with ⟨names, hnames, rfl⟩
    have he : (⟨source, target, l.names⟩ : Edge) ∈ edgesOf calls :=
      List.mem_flatMap.2 ⟨_, hrow, List.mem_map.2 ⟨_, hmem, rfl⟩⟩
    exact ⟨l, names, hmem, hf _ he _ hnames, rfl⟩
  refine ⟨?_, fun e he => ?_, ?_, ?_⟩
  · intro e he
    rcases mem_keepRows he with ⟨row, hmem, -, -⟩
    exact (hinside (e.1, row) hmem).1
  · exact (mem_keepRows he).choose_spec.2.2
  · intro e he x hx
    rcases mem_keepRows he with ⟨row, hmem, hrow, -⟩
    rw [hrow] at hx
    rcases hentry hmem x hx with ⟨l, -, hx, -⟩
    exact (hinside (e.1, row) hmem).2 (x.1, l) hx
  · intro e he x hx
    rcases mem_keepRows he with ⟨row, hmem, hrow, -⟩
    rw [hrow] at hx
    rcases hentry hmem x hx with ⟨-, names, -, hne, hx⟩
    exact ⟨names, hne, hx⟩

theorem keepRows (h : CallsIn inside calls) {f : Edge → Option (List String)}
    (hf : ∀ e ∈ edgesOf calls, ∀ names, f e = some names → names ≠ []) :
    CallsIn inside (keepRows f calls) :=
  of_keepRows (fun e he => ⟨h.source_inside e he, h.target_inside e he⟩) hf

/-- The edges of an analysis are those with texts as labels. -/
theorem arcsOf_eq (h : CallsIn inside calls) : arcsOf calls = (edgesOf calls).map Edge.arc := by
  unfold arcsOf edgesOf
  rw [List.map_flatMap, List.flatMap_def, List.flatMap_def]
  refine congrArg List.flatten (List.map_congr_left (fun e he => ?_))
  unfold rowArcs rowEdges
  rw [List.map_map]
  refine List.map_congr_left (fun x hx => ?_)
  rcases h.labelled e he x hx with ⟨names, -, hnames⟩
  rw [Function.comp_apply, Edge.arc, hnames, Labels.names_ofNames]

/-- A table is put together from its edges. -/
theorem foldl_enterEdge (h : CallsIn inside calls) :
    (edgesOf calls).foldl enterEdge Table.empty = calls := by
  have harcs := foldl_enterArc h.row_ne_nil
  rw [h.arcsOf_eq, List.foldl_map] at harcs
  exact harcs

/-- The edges of a table are those that it answers with. -/
theorem mem_edgesOf {g : Graph} (h : CallsIn inside g.calls) {e : Edge} :
    e ∈ edgesOf g.calls ↔ g.edge? e.source e.target = some (Labels.ofNames e.names) := by
  unfold Graph.edge?
  constructor
  · intro he
    rcases List.mem_flatMap.1 he with ⟨⟨source, row⟩, hrow, he⟩
    rcases List.mem_map.1 he with ⟨⟨target, l⟩, hl, rfl⟩
    rcases h.labelled _ hrow _ hl with ⟨names, -, hnames⟩
    have hnames' : l = Labels.ofNames names := hnames
    rw [Table.get?_of_mem hrow, Option.bind_some, Table.get?_of_mem hl, hnames',
      Labels.names_ofNames]
  · intro he
    rcases Option.bind_eq_some_iff.1 he with ⟨row, hrow, hl⟩
    refine List.mem_flatMap.2 ⟨_, Table.mem_entries_of_get? hrow, ?_⟩
    refine List.mem_map.2 ⟨_, Table.mem_entries_of_get? hl, ?_⟩
    rw [Labels.names_ofNames]

/-- Edges with the same ends have the same labels. -/
theorem edge_unique {g : Graph} (h : CallsIn inside g.calls) {e e' : Edge}
    (he : e ∈ edgesOf g.calls)
    (he' : e' ∈ edgesOf g.calls) (hsource : e.source = e'.source) (htarget : e.target = e'.target) :
    e = e' := by
  have hedge := h.mem_edgesOf.1 he
  have hedge' := h.mem_edgesOf.1 he'
  rw [hsource, htarget, hedge'] at hedge
  have hnames := Labels.ofNames_injective (Option.some.inj hedge)
  cases e
  cases e'
  simp_all

/-- A text on an edge is one of those that the table lists. -/
theorem mem_names {g : Graph} (h : CallsIn inside g.calls) {source target : SourcePath}
    {label : String} : label ∈ g.names source target ↔
      ∃ names, ⟨source, target, names⟩ ∈ edgesOf g.calls ∧ label ∈ names := by
  constructor
  · intro hlabel
    cases hedge : g.edge? source target with
    | none =>
      rw [Graph.names, Graph.labels_eq_edge?, hedge] at hlabel
      cases hlabel
    | some l =>
      rcases (h.edge hedge).2.2 with ⟨names, -, rfl⟩
      rw [Graph.names, Graph.labels_eq_edge?, hedge, Option.getD_some,
        Labels.names_ofNames] at hlabel
      exact ⟨names, h.mem_edgesOf.2 hedge, hlabel⟩
  · rintro ⟨names, hedge, hlabel⟩
    have hedge' := h.mem_edgesOf.1 hedge
    rwa [Graph.names, Graph.labels_eq_edge?, hedge', Option.getD_some, Labels.names_ofNames]

end CallsIn

end JavaDeps
