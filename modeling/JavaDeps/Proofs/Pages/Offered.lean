import JavaDeps.Proofs.Pages.Controllers
import JavaDeps.Proofs.Selection.Choice

/-!
# Ids that are offered

All page functions are offered under the mark and the text of their ids. The look-ups take every
mark out of an id and not only the first one, so an id with a mark in its own text is not found
again, or is taken for another one.
-/

namespace JavaDeps

theorem mem_sortBy {α : Type} {before : α → α → Bool} {y : α} {xs : List α} :
    y ∈ sortBy before xs ↔ y ∈ xs := by
  have hfold : ∀ sorted, y ∈ xs.foldl (fun acc x => insertSorted before x acc) sorted ↔
      y ∈ sorted ∨ y ∈ xs := by
    induction xs with
    | nil => simp
    | cons x rest ih =>
      intro sorted
      rw [List.foldl_cons, ih, mem_insertSorted, List.mem_cons, or_assoc, or_left_comm]
  rw [sortBy, hfold, or_iff_right List.not_mem_nil]

/-- Looking up one id among several is looking up this id. -/
theorem FunctionTable.withIds_singleton (t : FunctionTable) (text : String) :
    t.withIds [text] = t.withId text := by
  unfold withIds withId
  rw [List.mapM_cons]
  cases t.engine.equals text with
  | error e => rfl
  | ok same =>
    refine congrArg Except.ok (List.filter_congr (fun r _ => ?_))
    simp

namespace Store

/-- Every look-up of the id answers with the row: the function itself, the list of its record alone,
and its controller under the id, if it has one. -/
structure Resolves (store : Store) (s : Session) (id : String) (r : FunctionRow) : Prop where
  byId : Leads (store.byId (.str id)) s (fun found _ => found = some (PageFunction.ofRow r))
  byIds : Leads (store.byIds (Value.ofNames [id])) s (fun found _ =>
    ∃ v, found = [v] ∧ v.field? "function_id" = some r.id ∧ v.field? "name" = some r.name)
  controllers : Leads (store.controllers (Value.ofNames [id])) s (fun found _ =>
    ∀ key, found.get? key = if key = id then r.component? else none)

def listed (r : FunctionRow) : ListedFunction where
  id := idMark ++ r.id.display
  functionId := r.id
  name := r.name
  controller := r.controller
  service := r.service

section

variable {store : Store} {s : Session} {t : FunctionTable} (hs : s.store = some t)
include hs

/-- Without the name of a schema nothing is listed. -/
theorem all_refused {e : Fault} (hschema : store.setting "schema" = .error e) :
    Tells store.all s [] := by
  refine Tells.bind (x := .error e) ⟨s.log, ?_⟩ (fun _ => ?_)
  · rw [attempt_run, bind_run, connect_run hs, hschema]
    rfl
  · exact Tells.bind (Tells.say _) (fun _ => Tells.pure [])

/-- A look-up by an id that cannot be compared finds nothing. -/
theorem byId_refused {id : String} {e : Fault} (hrows : t.withId (plainId id) = .error e) :
    Leads (store.byId (.str id)) s (fun found _ => found = none) := by
  rw [byId]
  refine Leads.bind ?_
  rw [Leads, attempt_run, bind_run, connect_run hs]
  dsimp only [Value.textFor]
  rw [bind_run, orFail_ok_run]
  dsimp only
  rw [hrows]
  cases store.setting "schema" with
  | error e => exact ⟨_, _, rfl, none, _, rfl, rfl⟩
  | ok _ =>
    cases t.require ["function_id", "function_name", "controller"] with
    | error e => exact ⟨_, _, rfl, none, _, rfl, rfl⟩
    | ok _ => exact ⟨_, _, rfl, none, _, rfl, rfl⟩

variable {schema : Value} (hschema : store.setting "schema" = .ok schema)
  (hcolumns : ∀ name ∈ functionColumns, name ∈ t.columns) (hclose : t.engine.close = .ok ())
include hschema hcolumns hclose

/-- All page functions are listed, sorted by their names. -/
theorem all_tells : Tells store.all s (t.sortedByName.map listed) := by
  refine Tells.bind (Tells.attempt ?_) (fun _ => Tells.pure _)
  refine Tells.bind ⟨s.log, connect_run hs⟩ (fun _ => ?_)
  refine Tells.bind (Tells.orFail hschema) (fun _ => ?_)
  refine Tells.bind (Tells.orFail (FunctionTable.require_ok hcolumns)) (fun _ => ?_)
  refine Tells.bind (Tells.orFail hclose) (fun _ => ?_)
  exact Tells.bind (Tells.say _) (fun _ => Tells.pure _)

/-- A marked id in a list is looked up like one alone. -/
theorem byIds_tells {id : String} (hid : Text.within idMark id = true) {rows : List FunctionRow}
    (hrows : t.withId (plainId id) = .ok rows) :
    Tells (store.byIds (Value.ofNames [id])) s (rows.map foundRecord) := by
  have hplain : plainIds [.str id] = .ok [plainId id] := by
    simp only [plainIds, Value.holds, hid]
    rfl
  have hfound : t.withIds [plainId id] = .ok rows :=
    (FunctionTable.withIds_singleton t (plainId id)).trans hrows
  have hrequire : t.require ["function_id", "function_name"] = .ok () :=
    FunctionTable.require_ok (fun name hname => hcolumns name (by revert name; decide))
  refine Tells.bind (Tells.attempt ?_) (fun _ => Tells.pure _)
  refine Tells.bind ⟨s.log, connect_run hs⟩ (fun _ => ?_)
  refine Tells.bind (Tells.orFail hplain) (fun _ => ?_)
  refine Tells.bind (Tells.orFail hschema) (fun _ => ?_)
  refine Tells.bind (Tells.orFail hrequire) (fun _ => ?_)
  refine Tells.bind (Tells.orFail hfound) (fun _ => ?_)
  exact Tells.bind (Tells.orFail hclose) (fun _ => Tells.pure _)

end

section

variable {store : Store} {s : Session} {t : FunctionTable} (hs : s.store = some t) {schema : Value}
  (hschema : store.setting "schema" = .ok schema)
  (hcolumns : ∀ name ∈ functionColumns, name ∈ t.columns) (hcompares : t.Compares)
include hs hschema hcolumns hcompares

/-- If the look-up of an offered id finds its row, then the look-up is by the text of the id. -/
theorem plainId_of_resolves {r : FunctionRow} (hr : r ∈ t.rows)
    (h : store.Resolves s (idMark ++ r.id.display) r) :
    plainId (idMark ++ r.id.display) = r.id.display := by
  have hrequire : t.require ["function_id", "function_name", "controller"] = .ok () :=
    FunctionTable.require_ok (fun name hname => hcolumns name (by revert name; decide))
  rcases h.byId with ⟨found, u, hrun, rfl⟩
  cases hequals : t.engine.equals (plainId (idMark ++ r.id.display)) with
  | error e =>
    have hrows : t.withId (plainId (idMark ++ r.id.display)) = .error e := by
      rw [FunctionTable.withId, hequals]
      rfl
    have hnone : Leads (store.byId (.str (idMark ++ r.id.display))) s
        (fun found _ => found = none) :=
      byId_refused hs hrows
    rcases hnone with ⟨found, v, hrefused, rfl⟩
    cases hrefused.symm.trans hrun
  | ok same =>
    have hrows : t.withId (plainId (idMark ++ r.id.display)) =
        .ok (t.rows.filter (fun r' => same r'.id)) := by
      rw [FunctionTable.withId, hequals]
      rfl
    have hbyId := byId_eq hs hschema hcompares.closes hrequire hrows
    rcases Option.map_eq_some_iff.1 (Except.ok.inj (congrArg Prod.fst (hbyId.symm.trans hrun))) with
      ⟨r', hhead, hrow⟩
    have hid : r'.id = r.id := congrArg PageFunction.functionId hrow
    have hsame : same r.id = true := hid ▸ (List.mem_filter.1 (List.mem_of_head? hhead)).2
    -- The numeral of an integer has no mark; any other id equals only its own text.
    by_cases hint : ∃ n, r.id = .int n
    · rcases hint with ⟨n, hn⟩
      rw [hn]
      exact plainId_mark n
    · have htext := hcompares.texts r hr (fun n hn => hint ⟨n, hn⟩) _ same hequals
      rw [htext] at hsame
      exact (beq_iff_eq.1 hsame).symm

/-- The look-ups of an offered id answer with its row exactly if its text has no mark and no other
id reads like it. -/
theorem resolves_iff (hdistinct : (t.rows.map FunctionRow.id).Nodup) {r : FunctionRow}
    (hr : r ∈ t.rows) :
    store.Resolves s (idMark ++ r.id.display) r ↔ Text.within idMark r.id.display = false ∧
      ∀ other ∈ t.rows, other.id.display = r.id.display → other.id = r.id := by
  have hrequire : ∀ names : List String, (∀ name ∈ names, name ∈ functionColumns) →
      t.require names = .ok () :=
    fun names hnames =>
      FunctionTable.require_ok (fun name hname => hcolumns name (hnames name hname))
  have hwithin : Text.within idMark (idMark ++ r.id.display) = true := by
    rw [Text.within, Text.occursIn_iff, String.toList_append]
    exact (List.prefix_append _ _).isInfix
  rcases hcompares.ids r hr with ⟨same, hequals, hsame⟩
  have hrows : t.withId r.id.display = .ok (t.rows.filter (fun r' => same r'.id)) := by
    rw [FunctionTable.withId, hequals]
    rfl
  constructor
  · intro h
    have hplain := plainId_of_resolves hs hschema hcolumns hcompares hr h
    rcases byIds_tells hs hschema hcolumns hcompares.closes hwithin (hplain.symm ▸ hrows) with
      ⟨log, hbyIds⟩
    rcases h.byIds with ⟨found, u, hrun, v, rfl, -⟩
    rcases List.map_eq_singleton_iff.1 (Except.ok.inj (congrArg Prod.fst (hbyIds.symm.trans hrun)))
      with ⟨r', hsingle, -⟩
    -- The row itself is found, so it is the only one.
    have hmem : r ∈ t.rows.filter (fun r' => same r'.id) :=
      List.mem_filter.2 ⟨hr, (hsame r hr).trans (beq_self_eq_true _)⟩
    rw [hsingle, List.mem_singleton] at hmem
    rw [← hmem] at hsingle
    have hunique := ((FunctionTable.filter_eq_singleton hdistinct hr).1 hsingle).2
    refine ⟨(plainId_mark_iff _).1 hplain, fun other hother hreads => hunique other hother ?_⟩
    rw [hsame other hother, hreads]
    exact beq_self_eq_true _
  · rintro ⟨hmark, hunique⟩
    have hfound : t.withId (plainId (idMark ++ r.id.display)) = .ok [r] := by
      rw [(plainId_mark_iff _).2 hmark, hrows]
      refine congrArg Except.ok ((FunctionTable.filter_eq_singleton hdistinct hr).2 ⟨?_, ?_⟩)
      · exact (hsame r hr).trans (beq_self_eq_true _)
      · intro other hother htest
        rw [hsame other hother] at htest
        exact hunique other hother (beq_iff_eq.1 htest)
    have hbyId := byId_eq hs hschema hcompares.closes (hrequire _ (by decide)) hfound
    rcases byIds_tells hs hschema hcolumns hcompares.closes hwithin hfound with
      ⟨log, hbyIds⟩
    refine ⟨Leads.of_run hbyId rfl, Leads.of_run hbyIds ⟨foundRecord r, rfl, rfl, rfl⟩, ?_⟩
    have hids : ∀ id ∈ [idMark ++ r.id.display], Text.starts id idMark = true := by
      intro id hid
      rw [List.mem_singleton.1 hid]
      exact starts_append _ _
    have hcontrollers : t.controllerRows (idMark ++ r.id.display) = .ok [r] := by
      rw [FunctionTable.controllerRows, hrequire _ (by decide), hfound]
      rfl
    have hreached : s.reached [idMark ++ r.id.display] = [idMark ++ r.id.display] := by
      simp [Session.reached, hs, FunctionTable.looksUp, hcontrollers, Except.isOk, Except.toBool]
    rcases store.controllers_tells hschema hids s with ⟨found, ⟨log', hrun⟩, hget⟩
    refine Leads.of_run hrun (fun key => ?_)
    rw [hget, hreached]
    by_cases hkey : key = idMark ++ r.id.display
    · rw [if_pos (List.mem_singleton.2 hkey), if_pos hkey, hkey, Session.controllerOf?, hs,
        Option.bind_some, FunctionTable.controllerOf?, hcontrollers]
      rfl
    · rw [if_neg (fun hmem => hkey (List.mem_singleton.1 hmem)), if_neg hkey]

end

end Store

/-- The list of all page functions offers every row of the table, unless the settings have no
schema, and every id that it offers is the mark and the text of the id of a row. The look-ups of the
offered id answer with this row, and with its controller if it has one, exactly if the mark does not
occur in the text and no other id reads the same, as the integer 7 and the text `7` do. The database
is one that compares ids as they read. -/
theorem offered_id_resolves_iff (store : Store) (s : Session) (t : FunctionTable)
    (hs : s.store = some t) (hcolumns : ∀ name ∈ functionColumns, name ∈ t.columns)
    (hcompares : t.Compares) (hdistinct : (t.rows.map FunctionRow.id).Nodup) :
    ∃ offered u, store.all s = (.ok offered, u) ∧
      (∀ schema, store.setting "schema" = .ok schema →
        ∀ r ∈ t.rows, ∃ f ∈ offered, f.functionId = r.id) ∧
      ∀ f ∈ offered, ∃ r ∈ t.rows, f.functionId = r.id ∧ f.id = "html_" ++ r.id.display ∧
        (store.Resolves u f.id r ↔ Text.within "html_" r.id.display = false ∧
          ∀ other ∈ t.rows, other.id.display = r.id.display → other.id = r.id) := by
  cases hschema : store.setting "schema" with
  | error e =>
    rcases Store.all_refused hs hschema with ⟨log, hrun⟩
    exact ⟨[], _, hrun, nofun, nofun⟩
  | ok schema =>
    rcases Store.all_tells hs hschema hcolumns hcompares.closes with ⟨log, hrun⟩
    refine ⟨_, _, hrun, fun _ _ r hr => ?_, fun f hf => ?_⟩
    · exact ⟨Store.listed r, List.mem_map_of_mem (mem_sortBy.2 hr), rfl⟩
    · rcases List.mem_map.1 hf with ⟨r, hr, rfl⟩
      have hrow : r ∈ t.rows := mem_sortBy.1 hr
      exact ⟨r, hrow, rfl, rfl,
        Store.resolves_iff (s := { s with log := log }) hs hschema hcolumns
          hcompares hdistinct hrow⟩

def markedTable : FunctionTable :=
  ⟨functionColumns, [⟨.str "html_form", .str "send", .str "MailController", .null⟩,
    ⟨.str "form", .str "draw", .str "ShapeController", .null⟩], .texts⟩

theorem markedTable_form_resolves :
    ∃ offered u, Store.standard.all { Session.ofDisk default with store := some markedTable } =
        (.ok offered, u) ∧
      ∃ f ∈ offered, f.functionId = .str "form" ∧
        ∃ r ∈ markedTable.rows, r.id = .str "form" ∧ Store.standard.Resolves u f.id r := by
  rcases offered_id_resolves_iff .standard { Session.ofDisk default with store := some markedTable }
    markedTable rfl (fun _ => id) (Engine.texts_compares _ _) (by simp [markedTable]) with ⟨offered,
      u, hrun, hall, hoffered⟩
  rcases hall _ rfl _ (.tail _ (.head _)) with ⟨f, hf, hform⟩
  rcases hoffered f hf with ⟨r, hr, hid, -, hiff⟩
  have hr' : r.id = .str "form" := hid.symm.trans hform
  refine ⟨offered, u, hrun, f, hf, hform, r, hr, hr', hiff.2 ?_⟩
  rw [hr']
  exact ⟨by decide, by simp [markedTable, Value.display, Atom.display]⟩

/-- The function with the id `html_form` is offered, but the look-up of its id finds another one. -/
theorem marked_id_finds_another :
    ∃ offered u, Store.standard.all { Session.ofDisk default with store := some markedTable } =
        (.ok offered, u) ∧
      (∃ f ∈ offered, f.id = "html_html_form" ∧ f.functionId = .str "html_form") ∧
      ∃ f v, Store.standard.byId (.str "html_html_form") u = (.ok (some f), v) ∧
        f.functionId = .str "form" :=
  ⟨_, _, rfl, ⟨_, .tail _ (.head _), rfl, rfl⟩, _, _, rfl, rfl⟩

end JavaDeps
