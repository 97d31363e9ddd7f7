import JavaDeps.Proofs.Analysis.Deep
import JavaDeps.Proofs.Selection.Filter
import JavaDeps.Web.Listing

/-!
# Functions that are offered

The list of functions can be given when all files lie below the directory of the graph and all
labels can be gone through. It offers page functions, then all classes, then the first labels on
edges up to a limit. Of several entries with one id it has the first.
-/

namespace JavaDeps

/-! ## Classes and calls -/

theorem Labels.items_ofNames (names : List String) :
    (Labels.ofNames names).items = names.map Value.str := rfl

namespace Graph

/-- All files lie below the directory, and all labels can be gone through. -/
structure Enumerable (g : Graph) : Prop where
  classes : ∀ e ∈ g.classes.entries, g.Below e.2
  sources : ∀ row ∈ g.calls.entries, ∀ cell ∈ row.2.entries, g.Below row.1
  targets : ∀ row ∈ g.calls.entries, ∀ cell ∈ row.2.entries, g.Below cell.1
  labels : ∀ row ∈ g.calls.entries, ∀ cell ∈ row.2.entries,
    ∃ items, cell.2.value.elements = .ok items

def listedClass (g : Graph) (kind : ServerKind) (e : String × SourcePath) : ListEntry where
  id := Choice.classMark ++ e.1
  name := .str e.1
  type := kind.classType e.1
  file := g.pathText e.2
  dependencies := (g.imports.getD e.2 SortedSet.empty).size

def listedCall (g : Graph) (source target : SourcePath) (label : Value) : ListEntry where
  id := Choice.callMark ++ g.callText source target label.display
  name := label
  type := "method"
  file := g.pathText source ++ " → " ++ g.pathText target
  dependencies := 1

theorem id_listedCall (g : Graph) (source target : SourcePath) (label : String) :
    (g.listedCall source target (.str label)).id =
      Choice.callMark ++ g.callText source target label := rfl

def listedFrom (g : Graph) (row : SourcePath × Targets SourcePath) : List ListEntry :=
  row.2.entries.flatMap (fun cell => cell.2.items.map (g.listedCall row.1 cell.1))

def listedCalls (g : Graph) : List ListEntry := g.calls.entries.flatMap g.listedFrom

variable {g : Graph}

/-- All classes are listed. -/
theorem classEntries_eq (h : g.Enumerable) (kind : ServerKind) :
    g.classEntries kind = .ok (g.classes.entries.map (g.listedClass kind)) := by
  refine mapM_eq_ok (fun e he => ?_)
  rw [classEntry, declaredEntry, (h.classes e he).relativePath]
  rfl

/-- A service is always listed as a class before, so the pass for services adds nothing. -/
theorem serviceEntries_eq (h : g.Enumerable) (kind : ServerKind) :
    g.serviceEntries (g.classes.entries.map (g.listedClass kind)) = .ok [] := by
  have hnone : ∀ e ∈ g.classes.entries,
      g.serviceItem? (g.classes.entries.map (g.listedClass kind)) e.1 e.2 = .ok none := by
    intro e he
    have hlisted : (g.classes.entries.map (g.listedClass kind)).any
        (fun x => x.id == "class_" ++ e.1) = true :=
      List.any_eq_true.2 ⟨_, List.mem_map_of_mem he, beq_self_eq_true _⟩
    rw [serviceItem?, hlisted, declaredEntry, (h.classes e he).relativePath]
    by_cases hservice : Text.ends e.1 "Service" = true
    · rw [if_pos hservice]
      rfl
    · rw [if_neg hservice]
  rw [serviceEntries, mapM_eq_ok hnone]
  simp [bind, Except.bind, pure, Except.pure, List.filterMap_map]

/-- A call between files below the directory is listed. -/
theorem callEntry_eq {source target : SourcePath} (hsource : g.Below source)
    (htarget : g.Below target) (label : Value) :
    g.callEntry source target label = .ok (g.listedCall source target label) := by
  rw [callEntry, hsource.relativePath, htarget.relativePath]
  simp only [listedCall, callText, Choice.callMark, String.append_assoc]
  rfl

theorem visitCalls_eq (h : g.Enumerable) (limit : Nat) {row : SourcePath × Targets SourcePath}
    (hrow : row ∈ g.calls.entries) {cell : SourcePath × Labels} (hcell : cell ∈ row.2.entries)
    (done : List ListEntry) :
    g.visitCalls limit row.1 (done.take limit) cell =
      .ok ((done ++ cell.2.items.map (g.listedCall row.1 cell.1)).take limit) := by
  rcases h.labels row hrow cell hcell with ⟨items, hitems⟩
  have hmore : ∀ labels : List Value, labels.mapM (g.callEntry row.1 cell.1) =
      .ok (labels.map (g.listedCall row.1 cell.1)) := fun labels =>
    mapM_eq_ok (fun label _ =>
      callEntry_eq (h.sources row hrow cell hcell) (h.targets row hrow cell hcell) label)
  -- The room that is left does not depend on what is beyond the limit.
  have hroom : limit - (done.take limit).length = limit - done.length := by
    rw [List.length_take]
    omega
  simp only [visitCalls, hitems, bind, Except.bind, hmore]
  rw [Labels.items_eq hitems, List.take_append, ← List.map_take, hroom]
  rfl

/-- The calls are listed up to the limit. -/
theorem callEntries_eq (h : g.Enumerable) (limit : Nat) :
    g.callEntries limit = .ok (g.listedCalls.take limit) := by
  have hrows : g.calls.entries.foldlM (fun found e =>
      if limit ≤ found.length then .ok found
      else e.2.entries.foldlM (g.visitCalls limit e.1) found) (([] : List ListEntry).take limit) =
        .ok (([] ++ g.listedCalls).take limit) := by
    refine foldlM_take (fun row hrow done => ?_) []
    split
    · rename_i hfull
      -- Once the limit is reached, further rows change nothing.
      have hlength : limit ≤ done.length := by
        rw [List.length_take] at hfull
        omega
      rw [List.take_append_of_le_length hlength]
    · exact foldlM_take (fun cell hcell => visitCalls_eq h limit hrow hcell) done
  rw [List.take_nil] at hrows
  exact hrows

/-! ### Graphs of an analysis -/

/-- The ids that a graph offers: of its classes, and of the labels on its edges. -/
inductive Offers (g : Graph) : String → Prop
  | ofClass {e : String × SourcePath} (he : e ∈ g.classes.entries) :
    g.Offers (Choice.classMark ++ e.1)
  | ofCall {e : Edge} {label : String} (he : e ∈ edgesOf g.calls) (hlabel : label ∈ e.names) :
    g.Offers (Choice.callMark ++ g.callText e.source e.target label)

variable {inside : SourcePath → Prop} {spelled : String → Prop}

/-- A regular graph can be enumerated. -/
theorem Regular.enumerable (h : g.Regular inside spelled)
    (hbelow : ∀ file, inside file → g.Below file) : g.Enumerable where
  classes e he := hbelow _ (h.class_inside e he)
  sources row hrow _ _ := hbelow _ (h.calls_in.source_inside row hrow)
  targets row hrow cell hcell := hbelow _ (h.calls_in.target_inside row hrow cell hcell)
  labels row hrow cell hcell := by
    rcases h.calls_in.labelled row hrow cell hcell with ⟨names, -, hnames⟩
    rw [hnames]
    exact ⟨_, rfl⟩

/-- The id of a listed call is offered by the graph. -/
theorem offers_of_mem_listedCalls (h : CallsIn inside g.calls) {x : ListEntry}
    (hx : x ∈ g.listedCalls) : g.Offers x.id := by
  rcases List.mem_flatMap.1 hx with ⟨row, hrow, hx⟩
  rcases List.mem_flatMap.1 hx with ⟨cell, hcell, hx⟩
  rcases List.mem_map.1 hx with ⟨v, hv, rfl⟩
  rcases h.labelled row hrow cell hcell with ⟨names, -, hnames⟩
  rw [hnames, Labels.items_ofNames] at hv
  rcases List.mem_map.1 hv with ⟨label, hlabel, rfl⟩
  have he : (⟨row.1, cell.1, names⟩ : Edge) ∈ edgesOf g.calls := by
    refine List.mem_flatMap.2 ⟨row, hrow, List.mem_map.2 ⟨cell, hcell, ?_⟩⟩
    rw [hnames, Labels.names_ofNames]
  have hoffer := Offers.ofCall he hlabel
  rw [id_listedCall]
  exact hoffer

/-- The first call is listed first. -/
theorem head?_listedCalls (h : CallsIn inside g.calls) {source target : SourcePath} {label : String}
    (hfirst : g.firstCall? = some (source, target, label)) :
    g.listedCalls.head? = some (g.listedCall source target (.str label)) := by
  rcases hrows : g.calls with ⟨_ | ⟨⟨s, ⟨_ | ⟨⟨t, l⟩, cells⟩, hcells⟩⟩, rows⟩, _⟩ <;>
    simp only [firstCall?, hrows, reduceCtorEq] at hfirst
  have hrow : (s, ⟨(t, l) :: cells, hcells⟩) ∈ g.calls.entries := by simp [hrows]
  rcases h.labelled _ hrow (t, l) List.mem_cons_self with ⟨_ | ⟨first, more⟩, hne, hl⟩
  · exact absurd rfl hne
  · have hl' : l = Labels.ofNames (first :: more) := hl
    subst hl'
    have hcall : s = source ∧ t = target ∧ first = label := by simpa using hfirst
    rcases hcall with ⟨rfl, rfl, rfl⟩
    rw [listedCalls, hrows]
    rfl

end Graph

/-! ## Entries with different ids -/

def addEntry (found : List (String × Value)) (e : String × Value) : List (String × Value) :=
  if e.1 ∈ found.map Prod.fst then found else found ++ [e]

theorem distinctEntries_eq (entries : List (String × Value)) :
    distinctEntries entries = entries.foldl addEntry [] := by
  have hstep : ∀ (t : Table String Value) (e : String × Value),
      (t.ensure e.1 e.2).entries = addEntry t.entries e := by
    intro t e
    unfold Table.ensure addEntry
    by_cases hkey : e.1 ∈ t.keys
    · rw [if_pos (Table.contains_iff_mem_keys.2 hkey), if_pos (by exact hkey)]
    · rw [if_neg (fun h => hkey (Table.contains_iff_mem_keys.1 h)), if_neg (by exact hkey),
        Table.entries_set_new hkey]
  have hfold : ∀ t : Table String Value,
      (entries.foldl (fun t e => t.ensure e.1 e.2) t).entries =
        entries.foldl addEntry t.entries := by
    induction entries with
    | nil => exact fun _ => rfl
    | cons e rest ih =>
      intro t
      rw [List.foldl_cons, List.foldl_cons, ih, hstep]
  exact hfold Table.empty

section

variable {entries found : List (String × Value)} {e : String × Value}

theorem mem_foldl_addEntry (h : e ∈ entries.foldl addEntry found) : e ∈ found ∨ e ∈ entries := by
  induction entries generalizing found with
  | nil => exact Or.inl h
  | cons x rest ih =>
    rcases ih h with h | h
    · unfold addEntry at h
      split at h
      · exact Or.inl h
      · rcases List.mem_append.1 h with h | h
        · exact Or.inl h
        · exact Or.inr (List.mem_singleton.1 h ▸ List.mem_cons_self)
    · exact Or.inr (List.mem_cons_of_mem _ h)

theorem keys_addEntry {key : String} :
    key ∈ (addEntry found e).map Prod.fst ↔ key ∈ found.map Prod.fst ∨ key = e.1 := by
  unfold addEntry
  split
  · rename_i hknown
    exact ⟨Or.inl, fun h => h.elim id (fun heq => heq ▸ hknown)⟩
  · simp only [List.map_append, List.mem_append, List.map_cons, List.map_nil, List.mem_singleton]

/-- The ids are those before and those of the gathered entries. -/
theorem keys_foldl_addEntry {key : String} :
    key ∈ (entries.foldl addEntry found).map Prod.fst ↔
      key ∈ found.map Prod.fst ∨ key ∈ entries.map Prod.fst := by
  induction entries generalizing found with
  | nil => simp
  | cons x rest ih =>
      rw [List.foldl_cons, ih, keys_addEntry, List.map_cons, List.mem_cons, or_assoc]

/-- Only given entries are gathered. -/
theorem mem_of_mem_distinctEntries (h : e ∈ distinctEntries entries) : e ∈ entries := by
  rw [distinctEntries_eq] at h
  exact (mem_foldl_addEntry h).resolve_left (fun h => by cases h)

/-- Every id of the entries is kept. -/
theorem keys_distinctEntries {key : String} :
    key ∈ (distinctEntries entries).map Prod.fst ↔ key ∈ entries.map Prod.fst := by
  rw [distinctEntries_eq, keys_foldl_addEntry]
  simp

/-- No id is gathered twice. -/
theorem nodup_keys_distinctEntries (entries : List (String × Value)) :
    ((distinctEntries entries).map Prod.fst).Nodup :=
  Table.nodup_keys _

/-- The id of every given entry is gathered. -/
theorem exists_mem_distinctEntries (h : e ∈ entries) : ∃ v, (e.1, v) ∈ distinctEntries entries := by
  rcases List.mem_map.1 (keys_distinctEntries.2 (List.mem_map_of_mem h)) with ⟨x, hx, hkey⟩
  exact ⟨x.2, hkey ▸ hx⟩

end

/-! ## Page functions -/

def IsPageEntry (e : String × Value) : Prop :=
  ∃ f : ListedFunction, e = (f.id, f.toValue) ∧ Text.starts f.id Choice.pageMark = true

/-- The stored page functions have ids of pages. -/
theorem Store.all_leads (store : Store) (s : Session) :
    Leads store.all s (fun found t => t.project = s.project ∧
      ∀ f ∈ found, Text.starts f.id Choice.pageMark = true) := by
  refine Leads.bind ((attempt_leads (fun s => s.project)
    (Q := fun found => ∀ f ∈ found, Text.starts f.id Choice.pageMark = true) ?_ ?_ s).weaken ?_)
  · refine Preserves.bind (connect_preserves _) (fun _ => ?_)
    refine Preserves.bind (Preserves.orFail _) (fun _ => ?_)
    refine Preserves.bind (Preserves.orFail _) (fun _ => ?_)
    exact Preserves.bind (Preserves.orFail _) (fun _ _ => rfl)
  · refine Answers.bind (fun table => Answers.bind (fun _ => Answers.bind (fun _ =>
      Answers.bind (fun _ => Answers.bind (fun _ => Answers.pure (fun f hf => ?_))))))
    rcases List.mem_map.1 hf with ⟨row, -, rfl⟩
    exact starts_append _ _
  · rintro (e | found) t ⟨hproject, hfound⟩
    · refine Leads.bind (Leads.of_run (say_run _ t) ?_)
      exact Leads.of_run (pure_run _ _) ⟨hproject, by simp⟩
    · exact Leads.of_run (pure_run found t) ⟨hproject, hfound found rfl⟩

/-- The listed pages are entries of pages. -/
theorem listedPages_leads (s : Session) :
    Leads listedPages s (fun found t => t.project = s.project ∧ ∀ e ∈ found, IsPageEntry e) := by
  unfold listedPages
  refine Leads.bind (Leads.of_run (theProject_run s) ?_)
  split
  · refine Leads.bind ((Store.all_leads _ s).weaken ?_)
    rintro found t ⟨hproject, hfound⟩
    refine Leads.bind (Leads.of_run (say_run _ t) ?_)
    refine Leads.of_run (pure_run _ _) ⟨hproject, fun e he => ?_⟩
    rcases List.mem_map.1 he with ⟨f, hf, rfl⟩
    exact ⟨f, rfl, hfound f hf⟩
  · refine Leads.bind (Leads.of_run (say_run _ s) ?_)
    exact Leads.of_run (pure_run _ _) ⟨rfl, by simp⟩

/-! ## The list -/

def Graph.entries (g : Graph) (kind : ServerKind) : List (String × Value) :=
  keyedRecords
    (g.classes.entries.map (g.listedClass kind) ++ g.listedCalls.take kind.callLimit)

/-- The list is put together from page functions, classes and calls. -/
theorem functionList_entries {s : Session} (h : s.project.graph.Enumerable) (kind : ServerKind) :
    Leads (functionList kind) s (fun offered t => t.project = s.project ∧
      ∃ pages, (∀ e ∈ pages, IsPageEntry e) ∧ (kind = .withoutPages → pages = []) ∧
        offered = (distinctEntries (pages ++ s.project.graph.entries kind)).map Prod.snd) := by
  cases kind with
  | withPages =>
    refine Leads.bind ((listedPages_leads s).weaken ?_)
    rintro pages t ⟨hproject, hpages⟩
    refine Leads.bind (Leads.of_run (theGraph_run t) ?_)
    rw [hproject, Graph.classEntries_eq h]
    refine Leads.bind (Leads.of_run (orFail_ok_run _ t) ?_)
    rw [Graph.callEntries_eq h]
    refine Leads.bind (Leads.of_run (orFail_ok_run _ t) ?_)
    exact Leads.of_run (pure_run _ t) ⟨hproject, pages, hpages, nofun, rfl⟩
  | withoutPages =>
    refine Leads.bind (Leads.of_run (theGraph_run s) ?_)
    rw [Graph.classEntries_eq h]
    refine Leads.bind (Leads.of_run (orFail_ok_run _ s) ?_)
    -- The pass over the services finds no class that is not listed already.
    rw [Graph.serviceEntries_eq h]
    refine Leads.bind (Leads.of_run (orFail_ok_run _ s) ?_)
    rw [Graph.callEntries_eq h]
    refine Leads.bind (Leads.of_run (orFail_ok_run _ s) ?_)
    refine Leads.of_run (pure_run _ s) ⟨rfl, [], nofun, fun _ => rfl, ?_⟩
    rw [List.append_nil]
    rfl

/-- Every record has the id under which it is entered. -/
theorem field?_id_of_mem {g : Graph} {kind : ServerKind} {pages : List (String × Value)}
    (hpages : ∀ e ∈ pages, IsPageEntry e) {e : String × Value} (he : e ∈ pages ++ g.entries kind) :
    e.2.field? "id" = some (.str e.1) := by
  rcases List.mem_append.1 he with he | he
  · rcases hpages e he with ⟨f, rfl, -⟩
    rfl
  · rcases List.mem_map.1 he with ⟨x, -, rfl⟩
    rfl

/-- After an analysis the list of functions can be given. It offers page functions, classes and
labels on edges, the first label of all among them. -/
theorem functionList_leads {s : Session} {inside : SourcePath → Prop} {spelled : String → Prop}
    (h : s.project.graph.Regular inside spelled)
    (hbelow : ∀ file, inside file → s.project.graph.Below file) (kind : ServerKind) :
    Leads (functionList kind) s (fun offered t => t.project = s.project ∧
      (∀ v ∈ offered, ∀ id, v.field? "id" = some (.str id) →
        Text.starts id Choice.pageMark = true ∨ s.project.graph.Offers id) ∧
      ∀ source target label, s.project.graph.firstCall? = some (source, target, label) →
        ∃ v ∈ offered, v.field? "id" =
          some (.str (Choice.callMark ++ s.project.graph.callText source target label))) := by
  refine (functionList_entries (h.enumerable hbelow) kind).weaken ?_
  rintro offered t ⟨hproject, pages, hpages, -, rfl⟩
  refine ⟨hproject, fun v hv id hid => ?_, fun source target label hfirst => ?_⟩
  · -- An id is that of a page function, of a class or of a call.
    rcases List.mem_map.1 hv with ⟨e, he, rfl⟩
    have hmem := mem_of_mem_distinctEntries he
    rw [field?_id_of_mem hpages hmem] at hid
    cases hid
    rcases List.mem_append.1 hmem with hmem | hmem
    · rcases hpages e hmem with ⟨f, rfl, hmark⟩
      exact Or.inl hmark
    · rcases List.mem_map.1 hmem with ⟨x, hx, rfl⟩
      rcases List.mem_append.1 hx with hx | hx
      · rcases List.mem_map.1 hx with ⟨c, hc, rfl⟩
        exact Or.inr (.ofClass hc)
      · exact Or.inr (Graph.offers_of_mem_listedCalls h.calls_in (List.mem_of_mem_take hx))
  · -- The first call is within the limit, and an id that is listed twice is offered once.
    have hlimit : 0 < kind.callLimit := by cases kind <;> decide
    have hlisted : s.project.graph.listedCall source target (.str label) ∈
        s.project.graph.listedCalls.take kind.callLimit := by
      refine List.mem_of_head? ?_
      rw [List.head?_take, if_neg (by omega)]
      exact Graph.head?_listedCalls h.calls_in hfirst
    have hmem := List.mem_append_right pages
      (List.mem_map_of_mem (f := fun e : ListEntry => (e.id, e.toValue))
        (List.mem_append_right (s.project.graph.classes.entries.map
          (s.project.graph.listedClass kind)) hlisted))
    rcases exists_mem_distinctEntries hmem with ⟨v, hv⟩
    refine ⟨v, List.mem_map_of_mem hv, ?_⟩
    exact field?_id_of_mem hpages (mem_of_mem_distinctEntries hv)

end JavaDeps
