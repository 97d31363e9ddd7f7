import JavaDeps.Proofs.Analysis.Plain
import JavaDeps.Proofs.Except
import JavaDeps.Proofs.Pages.Engine

/-!
# Ids of page functions

A page function that is added gets the number after the largest one in the table. The ids of a
table stay different from each other, whatever is added and however often the table is cleared, and
a function is found under the id it got. The database may refuse any statement; then the table stays
as it is.
-/

namespace JavaDeps

/-! ## Tables -/

def newRow (n : Int) (name description : Value) : FunctionRow :=
  ⟨.int n, .str (name.display ++ " - " ++ description.display), .null, .null⟩

namespace FunctionTable

variable {t : FunctionTable}

/-- The table has all columns, its ids are integers, each of them different from the others, and the
database finds them under their numerals. -/
structure Keyed (t : FunctionTable) : Prop where
  columns : ∀ name ∈ functionColumns, name ∈ t.columns
  ids : ∃ ids : List Int, t.rows.map FunctionRow.id = ids.map Value.int ∧ ids.Nodup
  finds : ∀ n, .int n ∈ t.rows.map FunctionRow.id → t.engine.Finds n
  closes : t.engine.close = .ok ()

theorem require_ok {names : List String} (h : ∀ name ∈ names, name ∈ t.columns) :
    t.require names = .ok () := by
  have hnone : names.find? (fun n => !t.columns.contains n) = none := by
    rw [List.find?_eq_none]
    intro name hname
    simpa using h name hname
  rw [require, hnone]

/-- A keyed table has the columns of page functions. -/
theorem Keyed.require (h : t.Keyed) {names : List String}
    (hnames : ∀ name ∈ names, name ∈ functionColumns) : t.require names = .ok () :=
  require_ok (fun name hname => h.columns name (hnames name hname))

/-- A row that is taken under a new id. -/
theorem Keyed.append (h : t.Keyed) {n : Int} (hn : .int n ∉ t.rows.map FunctionRow.id)
    (hfinds : t.engine.Finds n) (name description : Value) :
    (t.append (newRow n name description)).Keyed := by
  rcases h.ids with ⟨ids, hids, hnodup⟩
  refine ⟨h.columns, ⟨ids ++ [n], ?_, ?_⟩, fun m hm => ?_, h.closes⟩
  · simp [FunctionTable.append, newRow, hids]
  · have hfresh : n ∉ ids := fun hmem => hn (hids ▸ List.mem_map_of_mem hmem)
    rw [List.nodup_append]
    refine ⟨hnodup, by simp, fun m hm k hk hmk => hfresh ?_⟩
    rw [← List.mem_singleton.1 hk, ← hmk]
    exact hm
  · rw [FunctionTable.append, List.map_append] at hm
    rcases List.mem_append.1 hm with hm | hm
    · exact h.finds m hm
    · cases List.mem_singleton.1 hm
      exact hfinds

theorem Keyed.cleared (h : t.Keyed) : t.cleared.Keyed :=
  ⟨h.columns, ⟨[], rfl, List.nodup_nil⟩, nofun, h.closes⟩

/-- The ids can be compared as before, although other statements may be refused. -/
theorem Keyed.turn (h : t.Keyed) {e : Engine} (hcounts : e.Counts)
    (hequals : e.equals = t.engine.equals) : Keyed { t with engine := e } := by
  refine ⟨h.columns, h.ids, fun n hn => ?_, hcounts.closes⟩
  show ∃ same, e.equals (Text.ofInt n) = .ok same ∧ _
  rw [hequals]
  exact h.finds n hn

/-- Every id of a keyed table is an integer. -/
theorem Keyed.integer (h : t.Keyed) {r : FunctionRow} (hr : r ∈ t.rows) : ∃ n, r.id = .int n := by
  rcases h.ids with ⟨ids, hids, -⟩
  have hid : r.id ∈ ids.map Value.int := hids ▸ List.mem_map_of_mem hr
  rcases List.mem_map.1 hid with ⟨n, -, hn⟩
  exact ⟨n, hn.symm⟩

/-- No two rows of a keyed table have the same id. -/
theorem Keyed.nodup (h : t.Keyed) : (t.rows.map FunctionRow.id).Nodup := by
  rcases h.ids with ⟨ids, hids, hnodup⟩
  rw [hids, List.Nodup, List.pairwise_map]
  refine hnodup.imp (fun hne heq => hne ?_)
  cases heq
  rfl

/-- Of rows with different ids, those that pass a test for the id of one of them are this one. -/
theorem filter_eq_singleton {rows : List FunctionRow} (hnodup : (rows.map FunctionRow.id).Nodup)
    {r : FunctionRow} (hr : r ∈ rows) {same : Value → Bool} :
    rows.filter (fun r' => same r'.id) = [r] ↔
      same r.id = true ∧ ∀ r' ∈ rows, same r'.id = true → r'.id = r.id := by
  constructor
  · intro hfound
    have hself : r ∈ rows.filter (fun r' => same r'.id) := hfound ▸ List.mem_singleton.2 rfl
    refine ⟨(List.mem_filter.1 hself).2, fun r' hr' hsame => ?_⟩
    have hmem : r' ∈ rows.filter (fun r' => same r'.id) := List.mem_filter.2 ⟨hr', hsame⟩
    rw [hfound, List.mem_singleton] at hmem
    rw [hmem]
  · rintro ⟨hself, hunique⟩
    have hmem : r ∈ rows.filter (fun r' => same r'.id) := List.mem_filter.2 ⟨hr, hself⟩
    have hids : ∀ r' ∈ rows.filter (fun r' => same r'.id), r'.id = r.id := by
      intro r' hr'
      rcases List.mem_filter.1 hr' with ⟨hrow, hsame⟩
      exact hunique r' hrow hsame
    have hdistinct : ((rows.filter (fun r' => same r'.id)).map FunctionRow.id).Nodup :=
      hnodup.sublist (List.filter_sublist.map _)
    -- Two of the rows that are found would have the same id.
    cases hfound : rows.filter (fun r' => same r'.id) with
    | nil => simp [hfound] at hmem
    | cons first rest =>
      rw [hfound] at hmem hids hdistinct
      cases rest with
      | nil => rw [List.mem_singleton.1 hmem]
      | cons second rest =>
        have hsame := (hids first (by simp)).trans (hids second (by simp)).symm
        simp [hsame] at hdistinct

/-- In a table with different integers as ids, a row is the only one with its id. -/
theorem Keyed.withId (h : t.Keyed) {r : FunctionRow} (hr : r ∈ t.rows) {n : Int}
    (hn : r.id = .int n) : t.withId (Text.ofInt n) = .ok [r] := by
  rcases h.finds n (hn ▸ List.mem_map_of_mem hr) with ⟨same, hequals, hsame⟩
  have hfound : t.rows.filter (fun r' => same r'.id) = [r] := by
    refine (filter_eq_singleton h.nodup hr).2 ⟨?_, fun r' hr' htest => ?_⟩
    · rw [hn, hsame, decide_eq_true rfl]
    · rcases h.integer hr' with ⟨m, hm⟩
      rw [hm, hsame] at htest
      rw [hm, hn, of_decide_eq_true htest]
  rw [FunctionTable.withId, hequals]
  exact congrArg Except.ok hfound

/-! ## Adding a row -/

/-- Adding a row leaves the engine as it is. -/
theorem engine_of_add {name : String} {t' : FunctionTable} (h : t.add name = .ok t') :
    t'.engine = t.engine := by
  rcases bind_eq_ok h with ⟨_, -, h⟩
  rcases bind_eq_ok h with ⟨n, -, h⟩
  rcases bind_eq_ok h with ⟨_, -, h⟩
  rcases bind_eq_ok h with ⟨_, -, h⟩
  cases h
  rfl

/-- A row that is added gets the id after the largest one, under which it is found. -/
theorem add_eq_ok (hcounts : t.engine.Counts) {ids : List Int}
    (hids : t.rows.map FunctionRow.id = ids.map Value.int) {name description : Value}
    {t' : FunctionTable} (h : t.add (name.display ++ " - " ++ description.display) = .ok t') :
    t' = t.append (newRow (idAfter ids) name description) ∧ t.engine.Finds (idAfter ids) := by
  rcases bind_eq_ok h with ⟨_, -, h⟩
  rcases bind_eq_ok h with ⟨n, hn, h⟩
  rcases bind_eq_ok h with ⟨_, -, h⟩
  rcases bind_eq_ok h with ⟨_, hinsert, h⟩
  cases h
  rw [hids] at hn
  cases hcounts.nextId ids n hn
  exact ⟨rfl, hcounts.finds _ _ _ rfl hinsert⟩

/-- The database takes the row of a function and makes it last. -/
def Takes (t : FunctionTable) (name description : Value) : Prop :=
  ∃ t', t.add (name.display ++ " - " ++ description.display) = .ok t' ∧
    t.engine.commit t'.rows = .ok ()

end FunctionTable

/-! ## The table of a session -/

section

variable {s : Session} {t : FunctionTable}

theorem connect_run (h : s.store = some t) : Store.connect s = (.ok t, s) := by
  rw [Store.connect, get_bind_run, h]
  rfl

theorem close_run (h : t.engine.close = .ok ()) : Store.close t s = (.ok (), s) := by
  rw [Store.close, h]
  rfl

/-- A commit that the engine accepts stores the table. -/
theorem commit_run (h : t.engine.commit t.rows = .ok ()) :
    Store.commit t s = (.ok (), { s with store := some t }) := by
  rw [Store.commit, h]
  rfl

/-- A commit that the engine refuses changes nothing. -/
theorem commit_fails {e : Fault} (h : t.engine.commit t.rows = .error e) :
    Store.commit t s = (.error e, s) := by
  rw [Store.commit, h]
  rfl

namespace Store

variable {store : Store}

/-- A setting can be read exactly if it is there. -/
theorem setting_isSome {name : String} :
    (∃ v, store.setting name = .ok v) ↔ (store.settings.field? name).isSome = true := by
  unfold setting
  cases store.settings.field? name <;> simp

/-- The attempt to add a function: a row is added, or nothing is done. -/
theorem add_cases (h : s.store = some t) (hkeyed : t.Keyed) (name description : Value) :
    (∃ t', (store.settings.field? "schema").isSome = true ∧
      t.add (name.display ++ " - " ++ description.display) = .ok t' ∧
      t.engine.commit t'.rows = .ok () ∧
      store.add name description s = (.ok true, { s with store := some t' })) ∨
    (¬ ((store.settings.field? "schema").isSome = true ∧ t.Takes name description) ∧
      ∃ u, store.add name description s = (.ok false, u) ∧ u.store = some t) := by
  rw [← setting_isSome]
  cases hschema : store.setting "schema" with
  | error e =>
    refine Or.inr ⟨by simp,
      s.report ("❌ Error adding function " ++ name.display ++ ": " ++ e.message), ?_, h⟩
    rw [add, hschema, bind_run, attempt_run, bind_run, connect_run h]
    rfl
  | ok schema =>
    rw [add, hschema, bind_run, attempt_run, bind_run, connect_run h]
    dsimp only
    rw [bind_run, orFail_ok_run]
    dsimp only
    cases hadd : t.add (name.display ++ " - " ++ description.display) with
    | error e =>
      refine Or.inr ⟨fun htakes => ?_,
        s.report ("❌ Error adding function " ++ name.display ++ ": " ++ e.message), rfl, h⟩
      -- The row is refused, so the table does not take the function.
      rcases htakes.2 with ⟨t', ht', -⟩
      cases hadd.symm.trans ht'
    | ok t' =>
      have hengine := FunctionTable.engine_of_add hadd
      rw [bind_run, orFail_ok_run]
      dsimp only
      rw [bind_run]
      cases hcommit : t.engine.commit t'.rows with
      | error e =>
        rw [commit_fails (hengine ▸ hcommit)]
        refine Or.inr ⟨fun htakes => ?_,
          s.report ("❌ Error adding function " ++ name.display ++ ": " ++ e.message), rfl, h⟩
        -- The row was taken, but it does not last.
        rcases htakes.2 with ⟨t'', ht'', hlasts⟩
        cases hadd.symm.trans ht''
        cases hcommit.symm.trans hlasts
      | ok _ =>
        rw [commit_run (hengine ▸ hcommit)]
        dsimp only
        rw [close_run (hengine ▸ hkeyed.closes)]
        exact Or.inl ⟨t', ⟨schema, rfl⟩, rfl, hcommit, rfl⟩

/-- The attempt to remove all functions: they are removed, or nothing is done. -/
theorem clear_cases (h : s.store = some t) (hkeyed : t.Keyed) :
    ∃ u, store.clear s = (.ok (), u) ∧ (u.store = some t.cleared ∨ u.store = some t ∧
      ¬ ((store.settings.field? "schema").isSome = true ∧ t.engine.delete t.rows = .ok () ∧
        t.engine.commit [] = .ok ())) := by
  rw [← setting_isSome]
  cases hschema : store.setting "schema" with
  | error e =>
    refine ⟨s.report ("❌ Error clearing database: " ++ e.message), ?_, Or.inr ⟨h, by simp⟩⟩
    rw [clear, hschema, bind_run, attempt_run, bind_run, connect_run h]
    rfl
  | ok schema =>
    rw [clear, hschema, bind_run, attempt_run, bind_run, connect_run h]
    dsimp only
    rw [bind_run, orFail_ok_run]
    dsimp only
    cases hdelete : t.engine.delete t.rows with
    | error e =>
      refine ⟨s.report ("❌ Error clearing database: " ++ e.message), ?_, Or.inr ⟨h, by simp⟩⟩
      rw [FunctionTable.delete, hdelete]
      rfl
    | ok _ =>
      -- The rows are gone from here on, unless they come back because the deletion does not last.
      have hdeleted : t.delete = .ok t.cleared := by
        rw [FunctionTable.delete, hdelete]
        rfl
      rw [hdeleted, bind_run, orFail_ok_run]
      dsimp only
      rw [bind_run, say_run]
      dsimp only
      cases hcommit : t.engine.commit [] with
      | error e =>
        refine ⟨(s.report "   🧹 Cleared HTML functions").report
          ("❌ Error clearing database: " ++ e.message), ?_, Or.inr ⟨h, by simp⟩⟩
        rw [bind_run, commit_fails hcommit]
        rfl
      | ok _ =>
        rw [bind_run, commit_run hcommit]
        dsimp only
        rw [bind_run, close_run hkeyed.cleared.closes]
        exact ⟨_, rfl, Or.inl rfl⟩

/-- A look-up by an id that can be compared. -/
theorem byId_eq (h : s.store = some t) {schema : Value}
    (hschema : store.setting "schema" = .ok schema) (hclose : t.engine.close = .ok ())
    (hrequire : t.require ["function_id", "function_name", "controller"] = .ok ()) {id : String}
    {rows : List FunctionRow} (hrows : t.withId (plainId id) = .ok rows) :
    store.byId (.str id) s = (.ok (rows.head?.map PageFunction.ofRow), s) := by
  rw [byId, hschema, bind_run, attempt_run, bind_run, connect_run h]
  dsimp only [Value.textFor]
  rw [bind_run, orFail_ok_run]
  dsimp only
  rw [hrequire, hrows, close, hclose]
  rfl

/-- A function is found under the id of its row. -/
theorem byId_run (h : s.store = some t) (hkeyed : t.Keyed) {schema : Value}
    (hschema : store.setting "schema" = .ok schema) {r : FunctionRow} (hr : r ∈ t.rows) {n : Int}
    (hn : r.id = .int n) :
    store.byId (.str (idMark ++ Text.ofInt n)) s = (.ok (some (PageFunction.ofRow r)), s) :=
  byId_eq h hschema hkeyed.closes (hkeyed.require (by decide))
    ((plainId_mark n).symm ▸ hkeyed.withId hr hn)

end Store

end

/-! ## Histories -/

/-- What can happen to the table of page functions: a change is made, or from then on the database
refuses other statements than before. -/
inductive StoreCall where
  | add (name description : Value)
  | clear
  | turn (engine : Engine)

def StoreCall.run (store : Store) : StoreCall → Action Unit
  | .add name description => do
    let _ ← store.add name description
  | .clear => store.clear
  | .turn engine =>
    modify (fun s => { s with store := s.store.map (fun t => { t with engine := engine }) })

/-- The database goes on to number rows by the largest id, and to compare ids as before. -/
def StoreCall.Fair (engine : Engine) : StoreCall → Prop
  | .turn engine' => engine'.Counts ∧ engine'.equals = engine.equals
  | _ => True

/-- A table that can be reached from one that the given database keeps. -/
structure FunctionTable.Kept (engine : Engine) (t : FunctionTable) : Prop where
  keyed : t.Keyed
  counts : t.engine.Counts
  equals : t.engine.equals = engine.equals

namespace FunctionTable.Kept

variable {engine : Engine} {t : FunctionTable}

theorem cleared (h : t.Kept engine) : t.cleared.Kept engine :=
  ⟨h.keyed.cleared, h.counts, h.equals⟩

/-- An added row has a fresh id, and the table stays one that the database keeps. -/
theorem add (h : t.Kept engine) {ids : List Int}
    (hids : t.rows.map FunctionRow.id = ids.map Value.int) {name description : Value}
    {t' : FunctionTable} (hadd : t.add (name.display ++ " - " ++ description.display) = .ok t') :
    t' = t.append (newRow (idAfter ids) name description) ∧ t'.Kept engine ∧
      .int (idAfter ids) ∉ t.rows.map FunctionRow.id := by
  rcases add_eq_ok h.counts hids hadd with ⟨rfl, hfinds⟩
  have hfresh : .int (idAfter ids) ∉ t.rows.map FunctionRow.id := by
    intro hmem
    rw [hids] at hmem
    rcases List.mem_map.1 hmem with ⟨m, hm, heq⟩
    cases heq
    exact idAfter_not_mem ids hm
  exact ⟨rfl, ⟨h.keyed.append hfresh hfinds name description, h.counts, h.equals⟩, hfresh⟩

end FunctionTable.Kept

/-- Whatever happens, the ids of the table stay different from each other. -/
theorem StoreCall.run_kept (store : Store) {engine : Engine} {call : StoreCall}
    (hcall : call.Fair engine) {s : Session} (h : ∃ t, s.store = some t ∧ t.Kept engine) :
    Leads (call.run store) s (fun _ u => ∃ t, u.store = some t ∧ t.Kept engine) := by
  rcases h with ⟨t, hs, hkept⟩
  cases call with
  | add name description =>
    rcases store.add_cases hs hkept.keyed name description with
      ⟨t', -, hadd, -, hrun⟩ | ⟨-, u, hrun, hu⟩
    · rcases hkept.keyed.ids with ⟨ids, hids, -⟩
      refine Leads.bind (Leads.of_run hrun (Leads.of_run (pure_run () _) ?_))
      exact ⟨t', rfl, (hkept.add hids hadd).2.1⟩
    · exact Leads.bind (Leads.of_run hrun (Leads.of_run (pure_run () u) ⟨t, hu, hkept⟩))
  | clear =>
    rcases store.clear_cases hs hkept.keyed with ⟨u, hrun, hu | ⟨hu, -⟩⟩
    · exact Leads.of_run hrun ⟨t.cleared, hu, hkept.cleared⟩
    · exact Leads.of_run hrun ⟨t, hu, hkept⟩
  | turn engine' =>
    refine ⟨(), _, rfl, { t with engine := engine' }, congrArg (Option.map _) hs, ?_⟩
    exact ⟨hkept.keyed.turn hcall.1 (hcall.2.trans hkept.equals.symm), hcall.1, hcall.2⟩

/-- What became of a table when a function was to be added to it, with the answer that was given:
the table has one row more, with an id that was free and under which the function is found, or it is
as before. -/
structure Store.Added (store : Store) (t : FunctionTable) (name description : Value) (added : Bool)
    (u : Session) : Prop where
  iff_taken : added = true ↔
    (store.settings.field? "schema").isSome = true ∧ t.Takes name description
  row : added = true → ∃ n, .int n ∉ t.rows.map FunctionRow.id ∧
    u.store = some (t.append (newRow n name description)) ∧
    store.byId (.str ("html_" ++ Text.ofInt n)) u =
      (.ok (some (PageFunction.ofRow (newRow n name description))), u)
  kept : added = false → u.store = some t

/-- The rows of those functions whose addition was answered with success, numbered from the given
number on in their order. -/
def rowsFrom (n : Int) (functions : List (Value × Value)) (answers : List Bool) :
    List FunctionRow :=
  ((functions.zip answers).filter Prod.snd).mapIdx (fun i f => newRow (n + i) f.1.1 f.1.2)

/-- What became of a table when it was to be cleared: it is empty, or a statement was refused and it
is as before. If it is empty, then those of the functions that are added next are numbered from one
on, in their order. -/
structure Store.Cleared (store : Store) (t : FunctionTable) (u : Session) : Prop where
  outcome : u.store = some t.cleared ∨ u.store = some t ∧
    ¬ ((store.settings.field? "schema").isSome = true ∧ t.engine.delete t.rows = .ok () ∧
      t.engine.commit [] = .ok ())
  refill : u.store = some t.cleared → ∀ functions : List (Value × Value),
    Leads (functions.mapM (fun f => store.add f.1 f.2)) u (fun answers v =>
      answers.length = functions.length ∧
      v.store = some { t with rows := rowsFrom 1 functions answers })

section

variable {engine : Engine} {s : Session} {t : FunctionTable} (h : s.store = some t)
  (hkept : t.Kept engine) (store : Store)
include h hkept

/-- A page function is added under a free id, or the table is as before. -/
theorem Store.add_leads (name description : Value) :
    Leads (store.add name description) s (store.Added t name description) := by
  rcases store.add_cases h hkept.keyed name description with
    ⟨t', hschema, hadd, hcommit, hrun⟩ | ⟨hrefused, u, hrun, hu⟩
  · refine Leads.of_run hrun ⟨⟨fun _ => ⟨hschema, t', hadd, hcommit⟩, fun _ => rfl⟩,
      fun _ => ?_, nofun⟩
    rcases hkept.keyed.ids with ⟨ids, hids, -⟩
    rcases setting_isSome.2 hschema with ⟨schema, hsetting⟩
    rcases hkept.add hids hadd with ⟨rfl, hkept', hfresh⟩
    exact ⟨_, hfresh, rfl, byId_run rfl hkept'.keyed hsetting
      (List.mem_append_right _ List.mem_cons_self) rfl⟩
  · exact Leads.of_run hrun ⟨⟨nofun, fun htaken => absurd htaken hrefused⟩, nofun, fun _ => hu⟩

/-- Functions that are added one after the other get one number after the other, and those that are
refused get none. -/
theorem Store.mapM_add_leads {ids : List Int}
    (hids : t.rows.map FunctionRow.id = ids.map Value.int) (functions : List (Value × Value)) :
    Leads (functions.mapM (fun f => store.add f.1 f.2)) s (fun answers u =>
      answers.length = functions.length ∧
      u.store = some { t with rows := t.rows ++ rowsFrom (idAfter ids) functions answers }) := by
  induction functions generalizing s t ids with
  | nil => exact ⟨[], s, rfl, rfl, by simpa [rowsFrom] using h⟩
  | cons f rest ih =>
    rw [List.mapM_cons]
    rcases store.add_cases h hkept.keyed f.1 f.2 with ⟨t', -, hadd, -, hrun⟩ | ⟨-, u, hrun, hu⟩
    -- The function is added under the next id, and the others follow from the one after it.
    · rcases hkept.add hids hadd with ⟨rfl, hkept', -⟩
      have hids' : (t.append (newRow (idAfter ids) f.1 f.2)).rows.map FunctionRow.id =
          (ids ++ [idAfter ids]).map Value.int := by
        simp [FunctionTable.append, newRow, hids]
      refine Leads.bind (Leads.of_run hrun (Leads.bind ((ih rfl hkept' hids').weaken ?_)))
      rintro answers v ⟨hlength, hv⟩
      refine Leads.of_run (pure_run _ v) ⟨by simp [hlength], hv.trans ?_⟩
      rw [idAfter_append]
      simp [rowsFrom, FunctionTable.append, List.mapIdx_cons, Int.add_assoc, Int.add_comm 1]
    · refine Leads.bind (Leads.of_run hrun (Leads.bind ((ih hu hkept hids).weaken ?_)))
      rintro answers v ⟨hlength, hv⟩
      exact Leads.of_run (pure_run _ v) ⟨by simp [hlength], hv.trans (by simp [rowsFrom])⟩

/-- The table is emptied, or it is as before. -/
theorem Store.clear_leads : Leads store.clear s (fun _ u => store.Cleared t u) := by
  rcases store.clear_cases h hkept.keyed with ⟨u, hrun, hu⟩
  refine Leads.of_run hrun ⟨hu, fun hempty functions => ?_⟩
  have hnone : t.cleared.rows.map FunctionRow.id = ([] : List Int).map Value.int := rfl
  exact store.mapM_add_leads hempty hkept.cleared hnone functions

end

/-- Whatever was added to a table with different ids, however often it was cleared and whatever
statements the database refused, the ids are different. The next function gets a free one and is
found under it, or the table stays as it is; and functions that are added right after the table was
cleared get the numbers from one on. -/
theorem page_ids_fresh (store : Store) (s : Session) (t : FunctionTable) (hs : s.store = some t)
    (hkeyed : t.Keyed) (hcounts : t.engine.Counts) (calls : List StoreCall)
    (hcalls : ∀ call ∈ calls, call.Fair t.engine) :
    ∃ u t', calls.forM (StoreCall.run store) s = (.ok (), u) ∧ u.store = some t' ∧ t'.Keyed ∧
      (∀ name description,
        Leads (store.add name description) u (store.Added t' name description)) ∧
      Leads store.clear u (fun _ v => store.Cleared t' v) := by
  have hrun : Leads (calls.forM (StoreCall.run store)) s
      (fun _ u => ∃ t', u.store = some t' ∧ t'.Kept t.engine) :=
    Leads.forM (fun call hcall _ hu => call.run_kept store (hcalls call hcall) hu)
      ⟨t, hs, hkeyed, hcounts, rfl⟩
  rcases hrun with ⟨_, u, hrun, t', hu, hkept⟩
  exact ⟨u, t', hrun, hu, hkept.keyed, store.add_leads hu hkept, store.clear_leads hu hkept⟩

/-- A table with a gap between its ids, of which one is below zero. -/
def gappedTable : FunctionTable :=
  ⟨functionColumns, [⟨.int 7, .str "login", .str "Auth", .null⟩, ⟨.int (-2), .null, .null, .null⟩],
    .numbers⟩

theorem keyed_gappedTable : gappedTable.Keyed :=
  ⟨fun _ h => h, ⟨[7, -2], rfl, by decide⟩, fun n _ => Engine.numbers_finds n, rfl⟩

/-- A database that takes no more rows. -/
def fullEngine : Engine :=
  { Engine.numbers with insert := fun _ _ => .error (.badStatement "could not extend file") }

theorem fullEngine_counts : fullEngine.Counts where
  nextId := Engine.numbers_counts.nextId
  finds := nofun
  closes := rfl

theorem page_ids_fresh_gapped :
    gappedTable.Keyed ∧ gappedTable.engine.Counts ∧
      ∃ u t', ([.add (.str "cart") (.str "list"), .clear, .turn fullEngine] : List StoreCall).forM
          (StoreCall.run Store.standard)
          { Session.ofDisk default with store := some gappedTable } = (.ok (), u) ∧
        u.store = some t' ∧
        Leads (Store.standard.add (.str "cart") (.str "list")) u
          (Store.standard.Added t' (.str "cart") (.str "list")) := by
  have hfair : ∀ call ∈ ([.add (.str "cart") (.str "list"), .clear, .turn fullEngine] :
      List StoreCall), call.Fair gappedTable.engine := by
    intro call hcall
    simp only [List.mem_cons, List.not_mem_nil, or_false] at hcall
    rcases hcall with rfl | rfl | rfl
    · trivial
    · trivial
    · exact ⟨fullEngine_counts, rfl⟩
  rcases page_ids_fresh Store.standard
    { Session.ofDisk default with store := some gappedTable } gappedTable rfl keyed_gappedTable
    Engine.numbers_counts _ hfair with ⟨u, t', hrun, hu, -, hadd, -⟩
  exact ⟨keyed_gappedTable, Engine.numbers_counts, u, t', hrun, hu, hadd _ _⟩

end JavaDeps
