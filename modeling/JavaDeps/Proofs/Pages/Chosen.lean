import JavaDeps.Proofs.Alike
import JavaDeps.Proofs.Pages.Controllers
import JavaDeps.Proofs.Selection.Filter
import JavaDeps.Proofs.Selection.Lookups

/-!
# Chosen page functions

A selection in a project with page functions keeps the chosen ones for the drawing, each with the
controller it calls. Either all of them are kept, in the order in which they were chosen, or what
was kept before stays.
-/

namespace JavaDeps

/-! ## Rows -/

namespace FunctionRow

def pageId (r : FunctionRow) : String := "html_" ++ r.id.display

/-- An integer id of the row has no more digits than can be read. -/
def Readable (r : FunctionRow) : Prop :=
  ∀ n, r.id = .int n → (Nat.toDigits 10 n.natAbs).length ≤ Text.digitLimit

/-- The id of a page function is its number behind the mark. -/
theorem pageId_of_int {r : FunctionRow} {n : Int} (h : r.id = .int n) :
    r.pageId = Store.idMark ++ Text.ofInt n := by
  rw [pageId, h]
  rfl

end FunctionRow

def PageLinks.addRow (links : PageLinks) (r : FunctionRow) : PageLinks :=
  if r.controller.isTruthy then
    { links with components := links.components.set (.str r.name.display) r.controller }
  else links

def PageLinks.ofRows (rows : List FunctionRow) : PageLinks :=
  rows.foldl PageLinks.addRow { functions := rows.map PageFunction.ofRow }

/-! ## Look-ups in what is kept -/

theorem get?_set_str (t : Table Atom Value) (name other : String) (v : Value) :
    (t.set (.str name) v).get? (.str other) =
      if name = other then some v else t.get? (.str other) := by
  have hkeys : (Atom.str name == Atom.str other) = true ↔ name = other := by
    rw [Atom.str_beq]
    exact ⟨fun h => (Atom.str.inj h).symm, fun h => congrArg Atom.str h.symm⟩
  rw [Table.get?_set]
  simp only [hkeys]

namespace PageLinks

theorem functions_foldl_addRow (rows : List FunctionRow) (links : PageLinks) :
    (rows.foldl addRow links).functions = links.functions := by
  induction rows generalizing links with
  | nil => rfl
  | cons r rest ih =>
    rw [List.foldl_cons, ih]
    unfold addRow
    split <;> rfl

theorem functions_ofRows (rows : List FunctionRow) :
    (ofRows rows).functions = rows.map PageFunction.ofRow :=
  functions_foldl_addRow rows _

/-- The last row of a name that has a controller decides. -/
theorem get?_foldl_addRow (name : String) (rows : List FunctionRow) (links : PageLinks) :
    (rows.foldl addRow links).components.get? (.str name) =
      (((rows.filter (fun r => r.name.display == name && r.controller.isTruthy)).getLast?).map
        FunctionRow.controller).or (links.components.get? (.str name)) := by
  induction rows generalizing links with
  | nil => rfl
  | cons r rest ih =>
    have hstep : (links.addRow r).components.get? (.str name) =
        if r.name.display == name && r.controller.isTruthy then some r.controller
        else links.components.get? (.str name) := by
      unfold addRow
      by_cases hc : r.controller.isTruthy = true
      · by_cases hname : r.name.display = name <;> simp [hc, get?_set_str, hname]
      · simp [hc]
    rw [List.foldl_cons, ih, hstep, List.filter_cons]
    by_cases hr : (r.name.display == name && r.controller.isTruthy) = true
    · rw [if_pos hr, if_pos hr, List.getLast?_cons]
      cases (rest.filter (fun r => r.name.display == name && r.controller.isTruthy)).getLast? <;>
        rfl
    · rw [if_neg hr, if_neg hr]

/-- A name is linked to the controller of its last row that has one. -/
theorem get?_ofRows (name : String) (rows : List FunctionRow) :
    (ofRows rows).components.get? (.str name) =
      ((rows.filter (fun r => r.name.display == name && r.controller.isTruthy)).getLast?).map
        FunctionRow.controller := by
  rw [ofRows, get?_foldl_addRow]
  exact Option.or_none

/-- Every name under which a controller is kept is a text. -/
theorem keys_foldl_addRow {rows : List FunctionRow} {links : PageLinks}
    (h : ∀ key ∈ links.components.keys, ∃ name, key = .str name) :
    ∀ key ∈ (rows.foldl addRow links).components.keys, ∃ name, key = .str name := by
  induction rows generalizing links with
  | nil => exact h
  | cons r rest ih =>
    refine ih ?_
    unfold addRow
    split
    · intro key hkey
      rw [Table.keys_set] at hkey
      split at hkey
      · exact h key hkey
      · rcases List.mem_append.1 hkey with hkey | hkey
        · exact h key hkey
        · exact ⟨_, List.mem_singleton.1 hkey⟩
    · exact h

end PageLinks

/-! ## Controllers -/

section

variable {s : Session} {t : FunctionTable} (hkeyed : t.Keyed)
include hkeyed

/-- The id of a row looks up this row alone. -/
theorem controllerRows_pageId {r : FunctionRow} (hr : r ∈ t.rows) :
    t.controllerRows r.pageId = .ok [r] := by
  rcases hkeyed.integer hr with ⟨n, hn⟩
  rw [FunctionTable.controllerRows, hkeyed.require (by decide), FunctionRow.pageId_of_int hn,
    Store.plainId_mark, hkeyed.withId hr hn]
  rfl

/-- The look-ups of the rows of a table end at none of them. -/
theorem reached_pageIds (hs : s.store = some t) {rows : List FunctionRow}
    (hrows : ∀ r ∈ rows, r ∈ t.rows) :
    s.reached (rows.map FunctionRow.pageId) = rows.map FunctionRow.pageId := by
  have hlooks : ∀ id ∈ rows.map FunctionRow.pageId, t.looksUp id = true := by
    intro id hid
    rcases List.mem_map.1 hid with ⟨r, hr, rfl⟩
    rw [FunctionTable.looksUp, controllerRows_pageId hkeyed (hrows r hr)]
    rfl
  rw [Session.reached, hs]
  exact takeWhile_of_forall hlooks

/-- The look-up finds the controllers of rows of the table. -/
theorem controllers_run (hs : s.store = some t) {rows : List FunctionRow}
    (hrows : ∀ r ∈ rows, r ∈ t.rows) :
    Leads (Store.standard.controllers (Value.ofNames (rows.map FunctionRow.pageId))) s
      (fun found _ => ∀ r ∈ rows, found.get? r.pageId = r.component?) := by
  have hids : ∀ id ∈ rows.map FunctionRow.pageId, Text.starts id Store.idMark = true := by
    intro id hid
    rcases List.mem_map.1 hid with ⟨r, -, rfl⟩
    exact starts_append Store.idMark _
  rcases Store.standard.controllers_tells rfl hids s with ⟨found, ⟨log, hrun⟩, hget⟩
  refine Leads.of_run hrun (fun r hr => ?_)
  rw [hget, reached_pageIds hkeyed hs hrows, if_pos (List.mem_map_of_mem hr),
    Session.controllerOf?, hs, Option.bind_some, FunctionTable.controllerOf?,
    controllerRows_pageId hkeyed (hrows r hr)]
  rfl

/-! ## Look-ups of page functions -/

/-- The id of a row finds its page function. -/
theorem byId_pageId_run (hs : s.store = some t) {r : FunctionRow} (hr : r ∈ t.rows) :
    Store.standard.byId (.str r.pageId) s = (.ok (some (PageFunction.ofRow r)), s) := by
  rcases hkeyed.integer hr with ⟨n, hn⟩
  have hschema : Store.standard.setting "schema" = .ok (.str "public") := rfl
  rw [FunctionRow.pageId_of_int hn]
  exact Store.byId_run hs hkeyed hschema hr hn

/-- The ids of rows find their page functions one after the other. -/
theorem mapM_byId_run (hs : s.store = some t) {rows : List FunctionRow}
    (hrows : ∀ r ∈ rows, r ∈ t.rows) :
    (rows.map FunctionRow.pageId).mapM (fun id => Store.standard.byId (.str id)) s =
      (.ok ((rows.map PageFunction.ofRow).map some), s) := by
  induction rows with
  | nil => rfl
  | cons r rest ih =>
    have hfirst := byId_pageId_run hkeyed hs (hrows r List.mem_cons_self)
    have hrest := ih (fun r' hr' => hrows r' (List.mem_cons_of_mem r hr'))
    rw [List.map_cons, List.mapM_cons, bind_run, hfirst]
    dsimp only
    rw [bind_run, hrest]
    rfl

theorem pagesByIds_run (hs : s.store = some t) {rows : List FunctionRow}
    (hrows : ∀ r ∈ rows, r ∈ t.rows) :
    pagesByIds (rows.map (fun r => .str r.pageId)) s = (.ok (rows.map PageFunction.ofRow), s) := by
  induction rows with
  | nil => rfl
  | cons r rest ih =>
    have hfirst := byId_pageId_run hkeyed hs (hrows r List.mem_cons_self)
    have hrest := ih (fun r' hr' => hrows r' (List.mem_cons_of_mem r hr'))
    rw [List.map_cons, pagesByIds, bind_run, hfirst]
    dsimp only
    rw [bind_run, hrest]
    rfl

/-- The number of a row finds its page function. -/
theorem findPage_run (hreached : s.project.hasStore = true) (hs : s.store = some t)
    {r : FunctionRow} (hr : r ∈ t.rows) {n : Int} (hn : r.id = .int n) :
    findPage n s = (.ok (some (PageFunction.ofRow r)), s) := by
  rw [findPage, bind_run, theProject_run]
  dsimp only
  rw [if_pos hreached, ← FunctionRow.pageId_of_int hn]
  exact byId_pageId_run hkeyed hs hr

/-- The look-up of a row goes on, if its name is a text. -/
theorem findPages_text (hreached : s.project.hasStore = true) (hs : s.store = some t)
    {r : FunctionRow} (hr : r ∈ t.rows) {n : Int} (hn : r.id = .int n) {name : String}
    (hname : r.name = .str name) (found : PagesFound) (rest : List Int) :
    findPages found (n :: rest) s =
      findPages { functions := found.functions ++ [PageFunction.ofRow r]
                  names := addName found.names (plainFunctionName name) } rest s := by
  have htext : (PageFunction.ofRow r).name.textFor "replace" = .ok name := by
    rw [PageFunction.ofRow, hname]
    rfl
  rw [findPages, bind_run, attempt_run, findPage_run hkeyed hreached hs hr hn]
  dsimp only
  rw [htext]

/-- The look-up of rows ends at one whose name is no text. -/
theorem findPages_other (hreached : s.project.hasStore = true) (hs : s.store = some t)
    {r : FunctionRow} (hr : r ∈ t.rows) {n : Int} (hn : r.id = .int n)
    (hname : ∀ name, r.name ≠ .str name) (found : PagesFound) (rest : List Int) :
    ∃ e, findPages found (n :: rest) s = (.ok (found, some e), s) := by
  have htext : ∃ e, (PageFunction.ofRow r).name.textFor "replace" = .error e := by
    rw [PageFunction.ofRow]
    unfold Value.textFor
    split
    · next name h => exact absurd h (hname name)
    · exact ⟨_, rfl⟩
  rcases htext with ⟨e, htext⟩
  refine ⟨e, ?_⟩
  rw [findPages, bind_run, attempt_run, findPage_run hkeyed hreached hs hr hn]
  dsimp only
  rw [htext]
  rfl

/-- Rows with texts as their names are all found. -/
theorem findPages_found (hreached : s.project.hasStore = true) (hs : s.store = some t)
    {rows : List FunctionRow} (hrows : ∀ r ∈ rows, r ∈ t.rows)
    (hnames : ∀ r ∈ rows, ∃ name, r.name = .str name) {numbers : List Int}
    (hnumbers : rows.map FunctionRow.id = numbers.map Value.int) (found : PagesFound) :
    ∃ names, findPages found numbers s =
      (.ok ({ functions := found.functions ++ rows.map PageFunction.ofRow, names := names }, none),
        s) := by
  induction rows generalizing numbers found with
  | nil =>
    have hnil : numbers = [] := by simpa using hnumbers.symm
    subst hnil
    exact ⟨found.names, by simp [findPages, pure_run]⟩
  | cons r rest ih =>
    rcases List.map_eq_cons_iff.1 hnumbers.symm with ⟨n, others, rfl, hn, hothers⟩
    rcases hnames r List.mem_cons_self with ⟨name, hname⟩
    rw [findPages_text hkeyed hreached hs (hrows r List.mem_cons_self) hn.symm hname]
    rcases ih (fun r' hr' => hrows r' (List.mem_cons_of_mem r hr'))
      (fun r' hr' => hnames r' (List.mem_cons_of_mem r hr')) hothers.symm _ with ⟨names, hrun⟩
    refine ⟨names, ?_⟩
    rw [hrun]
    simp

/-- Rows among which one has no text as its name are not all found. -/
theorem findPages_fault (hreached : s.project.hasStore = true) (hs : s.store = some t)
    {rows : List FunctionRow} (hrows : ∀ r ∈ rows, r ∈ t.rows)
    (hother : ∃ r ∈ rows, ∀ name, r.name ≠ .str name) {numbers : List Int}
    (hnumbers : rows.map FunctionRow.id = numbers.map Value.int) (found : PagesFound) :
    ∃ found' e, findPages found numbers s = (.ok (found', some e), s) := by
  induction rows generalizing numbers found with
  | nil =>
    rcases hother with ⟨r, hr, -⟩
    cases hr
  | cons r rest ih =>
    rcases List.map_eq_cons_iff.1 hnumbers.symm with ⟨n, others, rfl, hn, hothers⟩
    have hr : r ∈ t.rows := hrows r List.mem_cons_self
    by_cases htext : ∃ name, r.name = .str name
    · rcases htext with ⟨name, hname⟩
      rw [findPages_text hkeyed hreached hs hr hn.symm hname]
      refine ih (fun r' hr' => hrows r' (List.mem_cons_of_mem r hr')) ?_ hothers.symm _
      -- The row without a text as its name is a later one.
      rcases hother with ⟨r', hr', hno⟩
      rcases List.mem_cons.1 hr' with rfl | hr'
      · exact absurd hname (hno name)
      · exact ⟨r', hr', hno⟩
    · exact ⟨found, findPages_other hkeyed hreached hs hr hn.symm (not_exists.1 htext) found others⟩

end

/-! ## Numbers of page functions -/

section

variable {rows : List FunctionRow} (hint : ∀ r ∈ rows, ∃ n, r.id = .int n)
include hint

theorem pageNumbers_readable (hread : ∀ r ∈ rows, r.Readable) :
    ∃ numbers, pageNumbers (rows.map FunctionRow.pageId) = .ok numbers := by
  induction rows with
  | nil => exact ⟨[], rfl⟩
  | cons r rest ih =>
    rcases hint r List.mem_cons_self with ⟨n, hn⟩
    rcases ih (fun r' hr' => hint r' (List.mem_cons_of_mem r hr'))
      (fun r' hr' => hread r' (List.mem_cons_of_mem r hr')) with ⟨numbers, hnumbers⟩
    have hfirst := Text.readInt_ofInt (hread r List.mem_cons_self n hn)
    refine ⟨n :: numbers, ?_⟩
    rw [List.map_cons, pageNumbers, FunctionRow.pageId_of_int hn, Store.plainId_mark, hfirst,
      hnumbers]
    rfl

/-- The numbers that are read are those of the rows. -/
theorem ids_of_pageNumbers {numbers : List Int}
    (h : pageNumbers (rows.map FunctionRow.pageId) = .ok numbers) :
    rows.map FunctionRow.id = numbers.map Value.int := by
  induction rows generalizing numbers with
  | nil =>
    cases h
    rfl
  | cons r rest ih =>
    rcases hint r List.mem_cons_self with ⟨n, hn⟩
    rw [List.map_cons, pageNumbers, FunctionRow.pageId_of_int hn, Store.plainId_mark] at h
    cases hfirst : Text.readInt (Text.ofInt n) with
    | error flaw =>
      rw [hfirst] at h
      cases h
    | ok m =>
      rw [hfirst] at h
      rcases bind_eq_ok h with ⟨others, hothers, hcons⟩
      cases hcons
      rw [Text.eq_of_readInt_ofInt hfirst, List.map_cons, List.map_cons, hn,
        ih (fun r' hr' => hint r' (List.mem_cons_of_mem r hr')) hothers]

end

/-! ## Keeping page functions -/

/-- A page function whose name is a text is linked to its controller. -/
theorem linkPage_ofRow {components : Table String Value} {r : FunctionRow}
    (hcomponent : components.get? r.pageId = r.component?) {name : String}
    (hname : r.name = .str name)
    (links : PageLinks) :
    linkPage components links (PageFunction.ofRow r) = .ok (links.addRow r) := by
  have hget : components.get? (Store.idMark ++ (PageFunction.ofRow r).functionId.display) =
      r.component? := hcomponent
  unfold linkPage PageLinks.addRow
  rw [hget]
  by_cases hc : r.controller.isTruthy = true
  · simp only [FunctionRow.component?, hc, if_true, PageFunction.ofRow, hname]
    rfl
  · simp only [FunctionRow.component?, hc]
    rfl

/-- The functions of rows are kept with their controllers, whatever is reported meanwhile. -/
theorem keepPages_run {rows : List FunctionRow} {components : Table String Value}
    (hcomponents : ∀ r ∈ rows, components.get? r.pageId = r.component?)
    (hnames : ∀ r ∈ rows, ∃ name, r.name = .str name) {report : PageFunction → Value → Action Unit}
    (hreport : ∀ f v, Succeeds (report f v))
    (hpages : ∀ f v, Preserves (fun s => s.project.pages) (report f v)) (s : Session) :
    Leads (keepPages (rows.map PageFunction.ofRow) components report) s
      (fun _ u => u.project.pages = PageLinks.ofRows rows) := by
  refine Leads.bind (Leads.of_run (modifyProject_run _ s) ?_)
  rw [PageLinks.ofRows]
  -- The links grow by one row in each round, from whatever was kept before the first one.
  generalize hstart : ({ functions := rows.map PageFunction.ofRow } : PageLinks) = links
  have hlinks : { s with project := { s.project with pages := links } }.project.pages = links := rfl
  revert hlinks
  generalize { s with project := { s.project with pages := links } } = u
  clear hstart
  induction rows generalizing u links with
  | nil => exact fun hu => Leads.of_run (pure_run () u) hu
  | cons r rest ih =>
    intro hu
    rcases hnames r List.mem_cons_self with ⟨name, hname⟩
    have hlink := linkPage_ofRow (hcomponents r List.mem_cons_self) hname links
    rw [List.map_cons]
    refine Leads.bind (Leads.bind (Leads.of_run (theProject_run u) ?_))
    rw [hu, hlink]
    refine Leads.bind (Leads.of_run (orFail_ok_run _ u) ?_)
    refine Leads.bind (Leads.of_run (modifyProject_run _ u) ?_)
    have hrest := fun v => ih (fun r' hr' => hcomponents r' (List.mem_cons_of_mem r hr'))
      (fun r' hr' => hnames r' (List.mem_cons_of_mem r hr')) (links.addRow r) v
    split
    · refine ((hreport _ _).leads (hpages _ _) _).weaken (fun _ v hv => ?_)
      exact hrest v hv
    · exact Leads.of_run (pure_run () _) (hrest _ rfl)

/-! ## Selections -/

section

variable {s : Session} {t : FunctionTable} (hreached : s.project.hasStore = true)
  (hs : s.store = some t) (hkeyed : t.Keyed) {rows : List FunctionRow}
  (hrows : ∀ r ∈ rows, r ∈ t.rows)
include hreached hs hkeyed hrows

/-- Rows whose names are texts are all kept by the choice. -/
theorem choosePages_kept (hnames : ∀ r ∈ rows, ∃ name, r.name = .str name)
    (hread : ∀ r ∈ rows, r.Readable) :
    Leads (choosePages (rows.map FunctionRow.pageId)) s
      (fun _ u => u.project.pages = PageLinks.ofRows rows) := by
  have hint : ∀ r ∈ rows, ∃ n, r.id = .int n := fun r hr => hkeyed.integer (hrows r hr)
  rcases pageNumbers_readable hint hread with ⟨numbers, hnumbers⟩
  rcases findPages_found hkeyed hreached hs hrows hnames (ids_of_pageNumbers hint hnumbers) {} with
    ⟨names, hfound⟩
  have hkept : Leads (do
      let components ← Store.standard.controllers (Value.ofNames (rows.map FunctionRow.pageId))
      keepPages (rows.map PageFunction.ofRow) components (fun _ _ => pure ())) s
      (fun _ u => u.project.pages = PageLinks.ofRows rows) := by
    refine Leads.bind
      ((controllers_run hkeyed hs hrows).weaken (fun components u hcomponents => ?_))
    exact keepPages_run hcomponents hnames (fun _ _ => Succeeds.pure ())
      (fun _ _ => Preserves.pure ()) u
  rcases hkept with ⟨_, u, hrun, hu⟩
  unfold choosePages
  rw [hnumbers]
  refine Leads.bind (Leads.of_run hfound (Leads.bind (Leads.of_run (attempt_run _ s) ?_)))
  rw [List.nil_append, hrun]
  exact Leads.of_run (pure_run _ u) hu

/-- One row whose name is no text keeps the choice from changing anything. -/
theorem choosePages_refused (hother : ∃ r ∈ rows, ∀ name, r.name ≠ .str name) :
    Leads (choosePages (rows.map FunctionRow.pageId)) s
      (fun _ u => u.project.pages = s.project.pages) := by
  have hint : ∀ r ∈ rows, ∃ n, r.id = .int n := fun r hr => hkeyed.integer (hrows r hr)
  unfold choosePages
  cases hnumbers : pageNumbers (rows.map FunctionRow.pageId) with
  | error e => exact Leads.of_run (pure_run _ s) rfl
  | ok numbers =>
    rcases findPages_fault hkeyed hreached hs hrows hother
      (ids_of_pageNumbers hint hnumbers) {} with
      ⟨found, e, hfound⟩
    exact Leads.bind (Leads.of_run hfound (Leads.of_run (pure_run _ s) rfl))

/-- Page functions whose names are texts are kept when they are added. -/
theorem addPageFunctions_kept (hne : rows ≠ []) (hnames : ∀ r ∈ rows, ∃ name, r.name = .str name) :
    (addPageFunctions (Value.ofNames (rows.map FunctionRow.pageId)) s).2.project.pages =
      PageLinks.ofRows rows := by
  have helements : (Value.ofNames (rows.map FunctionRow.pageId)).elements =
      .ok (rows.map (fun r => .str r.pageId)) := by
    simp [Value.ofNames, Value.elements, Function.comp_def]
  have htruthy : (Value.ofNames (rows.map FunctionRow.pageId)).isTruthy = true := by
    simpa [Value.ofNames, Value.isTruthy] using hne
  have hkept : Leads (do
      let functions ← pagesByIds
        (← orFail (Value.ofNames (rows.map FunctionRow.pageId)).elements)
      let components ← Store.standard.controllers (Value.ofNames (rows.map FunctionRow.pageId))
      keepPages functions components (fun f component =>
        say ("📱 " ++ f.name.display ++ " → 🔧 " ++ component.display))) s
      (fun _ u => u.project.pages = PageLinks.ofRows rows) := by
    rw [helements]
    refine Leads.bind (Leads.of_run (orFail_ok_run _ s) ?_)
    refine Leads.bind (Leads.of_run (pagesByIds_run hkeyed hs hrows) ?_)
    refine Leads.bind
      ((controllers_run hkeyed hs hrows).weaken (fun components u hcomponents => ?_))
    exact keepPages_run hcomponents hnames (fun _ _ => Succeeds.say _)
      (fun _ _ => pages_apart.say _) u
  rcases hkept with ⟨_, u, hrun, hu⟩
  unfold addPageFunctions
  rw [bind_run, theProject_run]
  dsimp only
  rw [if_pos (by rw [hreached, htruthy]; rfl), bind_run, attempt_run, hrun]
  exact hu

end

/-- What is kept of the chosen page functions stays during the rest of the selection. -/
theorem filterPaged_pages {s : Session} {ids : List String} {links : PageLinks}
    (hsome : ids.filter (fun id => Text.starts id Choice.pageMark) ≠ [])
    (h : Leads (choosePages (ids.filter (fun id => Text.starts id Choice.pageMark))) s
      (fun _ u => u.project.pages = links)) :
    (filterPaged (Value.ofNames ids) s).2.project.pages = links := by
  rcases h with ⟨⟨found, fault?⟩, u, hrun, hu⟩
  have hgraph : ∀ f, Preserves (fun s => s.project.pages) (modifyGraph f) := fun _ _ => rfl
  -- Whatever follows the choice of the pages does not touch them.
  have hnamed : ∀ names : List String, Preserves (fun s => s.project.pages)
      (if (!names.isEmpty) = true then do
        say ("🎯 Setting selected functions for implementation analysis: "
          ++ (Value.ofNames names).quoted)
        selectFunctions (Value.ofNames names)
        filterCalls (Value.ofNames names)
        filterGraph (Value.ofNames ids)
      else filterGraph (Value.ofNames ids)) := by
    intro names
    split
    · refine say_then_preserves pages_apart _ ?_
      refine Preserves.bind (selectFunctions_preserves pages_apart _) (fun _ => ?_)
      refine Preserves.bind (filterCalls_preserves pages_apart hgraph _) (fun _ => ?_)
      exact filterGraph_preserves pages_apart hgraph _
    · exact filterGraph_preserves pages_apart hgraph _
  have hnotEmpty : (!(ids.filter (fun id => Text.starts id Choice.pageMark)).isEmpty) = true := by
    simpa using hsome
  unfold filterPaged
  rw [idTexts_ofNames, bind_run, orFail_ok_run]
  simp only [hnotEmpty, if_true]
  rw [bind_run, hrun]
  cases fault? with
  | none => exact (hnamed _ u).trans hu
  | some e => exact (say_then_preserves pages_apart _ (hnamed _) u).trans hu

/-- The rows that a selection chooses, in the order of the ids, are kept all together: if each of
them has a text as its name and an id with no more digits than can be read, then the functions that
are found under the ids are kept, and for each name the controller of the last row of this name that
has one. Nothing is kept besides, and the same is kept when the page functions are added on their
own. If a row has no text as its name, then what was kept before stays. -/
theorem chosen_pages_kept (s : Session) (t : FunctionTable) (ids : List String)
    (rows : List FunctionRow) (hdepth : s.project.depth = .paged)
    (hreached : s.project.hasStore = true) (hs : s.store = some t) (hkeyed : t.Keyed)
    (hrows : ∀ r ∈ rows, r ∈ t.rows) (hne : rows ≠ [])
    (hids : ids.filter (fun id => Text.starts id "html_") = rows.map FunctionRow.pageId) :
    ((∀ r ∈ rows, ∃ name, r.name = .str name) → (∀ r ∈ rows, r.Readable) →
      ∃ links, (filterProject (Value.ofNames ids) s).2.project.pages = links ∧
        (addPageFunctions (Value.ofNames (rows.map FunctionRow.pageId)) s).2.project.pages = links ∧
        (rows.map FunctionRow.pageId).mapM (fun id => Store.standard.byId (.str id)) s =
          (.ok (links.functions.map some), s) ∧
        (∀ name, links.components.get? (.str name) =
          ((rows.filter (fun r => r.name.isText name && r.controller.isTruthy)).getLast?).map
            FunctionRow.controller) ∧
        ∀ key ∈ links.components.keys, ∃ name, key = .str name) ∧
    ((∃ r ∈ rows, ∀ name, r.name ≠ .str name) →
      (filterProject (Value.ofNames ids) s).2.project.pages = s.project.pages) := by
  have hfilter : ∀ {links : PageLinks}, Leads (choosePages (rows.map FunctionRow.pageId)) s
      (fun _ u => u.project.pages = links) →
      (filterProject (Value.ofNames ids) s).2.project.pages = links := by
    intro links hchosen
    unfold filterProject
    rw [bind_run, theProject_run]
    dsimp only
    rw [hdepth]
    have hsome : ids.filter (fun id => Text.starts id Choice.pageMark) ≠ [] := by
      intro hnone
      exact hne (List.map_eq_nil_iff.1 (hids.symm.trans hnone))
    exact filterPaged_pages hsome (hids.symm ▸ hchosen)
  refine ⟨fun hnames hread => ⟨PageLinks.ofRows rows, ?_, ?_, ?_, fun name => ?_, ?_⟩,
    fun hother => ?_⟩
  · exact hfilter (choosePages_kept hreached hs hkeyed hrows hnames hread)
  · exact addPageFunctions_kept hreached hs hkeyed hrows hne hnames
  · rw [PageLinks.functions_ofRows]
    exact mapM_byId_run hkeyed hs hrows
  · rw [PageLinks.get?_ofRows]
    -- Where the name of a row is a text, the text that stands for it is the name.
    have hsame : rows.filter (fun r => r.name.isText name && r.controller.isTruthy) =
        rows.filter (fun r => r.name.display == name && r.controller.isTruthy) := by
      refine List.filter_congr (fun r hr => ?_)
      rcases hnames r hr with ⟨name', hname⟩
      rw [hname]
      rfl
    rw [hsame]
  · exact PageLinks.keys_foldl_addRow (fun key hkey => by cases hkey)
  · exact hfilter (choosePages_refused hreached hs hkeyed hrows hother)

def loginRows : List FunctionRow :=
  [⟨.int 1, .str "login", .str "Auth", .null⟩, ⟨.int 2, .str "login", .str "Account", .null⟩]

def namelessRow : FunctionRow := ⟨.int 3, .null, .str "Cart", .null⟩

/-- A project with page functions, of which one has no name. -/
def choosingSession : Session :=
  { Session.ofDisk default with
    project := { depth := .paged, hasStore := true, graph := default }
    store := some ⟨functionColumns, loginRows ++ [namelessRow], .numbers⟩ }

theorem readable_loginRows : ∀ r ∈ loginRows, r.Readable := by
  intro r hr n hn
  simp only [loginRows, List.mem_cons, List.not_mem_nil, or_false] at hr
  rcases hr with rfl | rfl <;> cases hn <;> decide

theorem chosen_pages_kept_login :
    FunctionTable.Keyed ⟨functionColumns, loginRows ++ [namelessRow], .numbers⟩ ∧
      (filterProject (Value.ofNames ["html_1", "class_A", "html_2"])
        choosingSession).2.project.pages =
        (addPageFunctions (Value.ofNames ["html_1", "html_2"]) choosingSession).2.project.pages ∧
      (filterProject (Value.ofNames ["html_1", "html_3"]) choosingSession).2.project.pages =
        choosingSession.project.pages := by
  have hkeyed : FunctionTable.Keyed ⟨functionColumns, loginRows ++ [namelessRow], .numbers⟩ :=
    ⟨fun _ h => h, ⟨[1, 2, 3], rfl, by decide⟩, fun n _ => Engine.numbers_finds n, rfl⟩
  have hnames : ∀ r ∈ loginRows, ∃ name, r.name = .str name := by
    intro r hr
    simp only [loginRows, List.mem_cons, List.not_mem_nil, or_false] at hr
    rcases hr with rfl | rfl <;> exact ⟨"login", rfl⟩
  refine ⟨hkeyed, ?_, ?_⟩
  · rcases (chosen_pages_kept choosingSession _ ["html_1", "class_A", "html_2"] loginRows rfl rfl
        rfl hkeyed (fun r hr => List.mem_append_left _ hr) (by decide) rfl).1 hnames
        readable_loginRows with ⟨links, hchosen, hadded, -⟩
    exact hchosen.trans hadded.symm
  · refine (chosen_pages_kept choosingSession _ ["html_1", "html_3"]
      (loginRows.take 1 ++ [namelessRow])
      rfl rfl rfl hkeyed ?_ (by decide) rfl).2 ⟨namelessRow, by simp, fun name h => by cases h⟩
    intro r hr
    exact (List.mem_append.1 hr).elim
      (fun h => List.mem_append_left _ (List.mem_of_mem_take h)) (List.mem_append_right _)

end JavaDeps
