import JavaDeps.Proofs.Pages.Ids

/-!
# Look-ups of controllers

The controllers of page functions are looked up one after the other. The first id that cannot be
looked up ends the search; all ids before it are found, in whatever order and however often they are
given.
-/

namespace JavaDeps

def FunctionRow.component? (r : FunctionRow) : Option Value :=
  if r.controller.isTruthy then some r.controller else none

namespace FunctionTable

def controllerRows (t : FunctionTable) (id : String) : Except Fault (List FunctionRow) := do
  t.require ["controller", "function_name", "function_id"]
  t.withId (Store.plainId id)

/-- The controller of a page function can be looked up, whether or not there is one. -/
def looksUp (t : FunctionTable) (id : String) : Bool := (t.controllerRows id).isOk

def controllerOf? (t : FunctionTable) (id : String) : Option Value :=
  (t.controllerRows id).toOption.bind (fun rows => rows.head?.bind FunctionRow.component?)

/-- A controller that is found stands in a row. -/
theorem exists_row_of_controllerOf? {t : FunctionTable} {id : String} {v : Value}
    (h : t.controllerOf? id = some v) : ∃ r ∈ t.rows, r.component? = some v := by
  unfold controllerOf? at h
  cases hrows : t.controllerRows id with
  | error e => simp [hrows, Except.toOption] at h
  | ok rows =>
    simp only [hrows, Except.toOption, Option.bind_some] at h
    rcases Option.bind_eq_some_iff.1 h with ⟨r, hr, hcomponent⟩
    rcases bind_eq_ok hrows with ⟨_, -, hwithId⟩
    rcases bind_eq_ok hwithId with ⟨same, -, hfilter⟩
    cases hfilter
    exact ⟨r, (List.mem_filter.1 (List.mem_of_head? hr)).1, hcomponent⟩

end FunctionTable

namespace Session

/-- The controller that is found for the id of a page function, if the table can be reached. -/
def controllerOf? (s : Session) (id : String) : Option Value :=
  s.store.bind (fun t => t.controllerOf? id)

/-- The ids up to the first one whose controller cannot be looked up. -/
def reached (s : Session) (ids : List String) : List String :=
  s.store.elim [] (fun t => ids.takeWhile t.looksUp)

end Session

theorem takeWhile_of_forall {α : Type} {p : α → Bool} {b : Bool} {xs : List α}
    (h : ∀ x ∈ xs, p x = b) : xs.takeWhile p = if b then xs else [] := by
  induction xs with
  | nil => cases b <;> rfl
  | cons x rest ih =>
    rw [List.takeWhile_cons, h x List.mem_cons_self,
      ih (fun y hy => h y (List.mem_cons_of_mem x hy))]
    cases b <;> rfl

/-- Without a connection there is nothing but the failure. -/
theorem connect_fails {α : Type} {s : Session} (h : s.store = none) (f : FunctionTable → Action α) :
    attempt (Store.connect >>= f) s = (.ok (.error (.noConnection "connection refused")), s) := by
  have hconnect : Store.connect s = (.error (.noConnection "connection refused"), s) := by
    rw [Store.connect, get_bind_run, h]
    rfl
  rw [attempt_run, bind_run, hconnect]

namespace Store

/-! ## One page function -/

/-- A page function is looked up for its name, and whatever is found is only reported. -/
theorem byId_tells (id : String) (s : Session) : ∃ f?, Tells (standard.byId (.str id)) s f? := by
  refine Tells.attempt_bind ?_ (fun tried log => ?_)
  · refine Preserves.bind (connect_preserves _) (fun t => ?_)
    refine Preserves.bind (Preserves.orFail _) (fun text => ?_)
    refine Preserves.bind (Preserves.orFail _) (fun _ => ?_)
    refine Preserves.bind (Preserves.orFail _) (fun _ => ?_)
    refine Preserves.bind (Preserves.orFail _) (fun rows => ?_)
    exact Preserves.bind (Preserves.orFail _) (fun _ => Preserves.pure _)
  · cases tried with
    | ok found => exact ⟨_, Tells.pure found⟩
    | error e => exact ⟨_, Tells.bind (Tells.say _) (fun _ => Tells.pure none)⟩

section

variable {store : Store} {schema : Value} (hschema : store.setting "schema" = .ok schema)
  {t : FunctionTable} {id : String} (hid : Text.starts id idMark = true)
include hschema hid

/-- A controller that can be looked up is entered, if there is one. -/
theorem addController_tells (hlooks : t.looksUp id = true) (found : Table String Value)
    (s : Session) :
    Tells (store.addController t found (.str id)) s
      ((t.controllerOf? id).elim found (found.set id)) := by
  unfold FunctionTable.looksUp at hlooks
  unfold FunctionTable.controllerOf?
  cases hrows : t.controllerRows id with
  | error e => simp [hrows, Except.isOk, Except.toBool] at hlooks
  | ok rows =>
    rcases bind_eq_ok hrows with ⟨_, hrequire, hwithId⟩
    refine Tells.bind (Tells.orFail rfl) (fun _ => ?_)
    rw [if_pos hid]
    refine Tells.bind (Tells.orFail hschema) (fun _ => ?_)
    refine Tells.bind (Tells.orFail hrequire) (fun _ => ?_)
    refine Tells.bind (Tells.orFail hwithId) (fun _ => ?_)
    simp only [Except.toOption, Option.bind_some]
    cases rows.head? with
    | none => exact Tells.bind (Tells.say _) (fun _ => Tells.pure _)
    | some r =>
      by_cases hcontroller : r.controller.isTruthy = true
      · simp only [Option.bind_some, FunctionRow.component?, hcontroller, if_true]
        exact Tells.bind (Tells.say _) (fun _ => Tells.pure _)
      · simp only [Option.bind_some, FunctionRow.component?, hcontroller]
        exact Tells.bind (Tells.say _) (fun _ => Tells.pure _)

/-- A controller that cannot be looked up fails, and changes nothing. -/
theorem addController_fails (hlooks : t.looksUp id = false) (found : Table String Value)
    (s : Session) : ∃ e, store.addController t found (.str id) s = (.error e, s) := by
  unfold FunctionTable.looksUp FunctionTable.controllerRows at hlooks
  unfold addController
  rw [bind_run]
  dsimp only [Value.textFor]
  rw [orFail_ok_run]
  dsimp only
  rw [if_pos hid, hschema]
  cases hrequire : t.require ["controller", "function_name", "function_id"] with
  | error e => exact ⟨e, rfl⟩
  | ok _ =>
    cases hwithId : t.withId (plainId id) with
    | error e => exact ⟨e, rfl⟩
    | ok rows =>
      rw [hrequire, hwithId] at hlooks
      cases hlooks

end

end Store

/-! ## Several page functions -/

namespace FunctionTable

def gather (t : FunctionTable) (found : Table String Value) (ids : List String) :
    Table String Value :=
  ids.foldl (fun found id => (t.controllerOf? id).elim found (found.set id)) found

variable (t : FunctionTable)

/-- What was found before stays, unless something is found again. -/
theorem get?_gather (found : Table String Value) (ids : List String) (id : String) :
    (t.gather found ids).get? id =
      if id ∈ ids then (t.controllerOf? id).or (found.get? id) else found.get? id := by
  induction ids generalizing found with
  | nil => simp [gather]
  | cons first rest ih =>
    have hfirst : ((t.controllerOf? first).elim found (found.set first)).get? id =
        if id = first then (t.controllerOf? first).or (found.get? first) else found.get? id := by
      cases t.controllerOf? first with
      | none => by_cases h : id = first <;> simp [h]
      | some v =>
        rw [Option.elim_some, Table.get?_set]
        by_cases h : first = id
        · simp [h]
        · have h' : ¬ id = first := fun heq => h heq.symm
          simp [h, h']
    rw [gather, List.foldl_cons, ← gather, ih, hfirst]
    by_cases h : id = first
    · subst h
      cases t.controllerOf? id <;> simp
    · simp [h]

end FunctionTable

namespace Store

/-- However the search ends, it answers what was found. -/
theorem endSearch_tells (found : Table String Value) (r : Except Fault Unit) (s : Session) :
    Tells (endSearch found r) s found := by
  cases r with
  | ok _ => exact Tells.pure found
  | error e => exact Tells.bind (Tells.say _) (fun _ => Tells.pure found)

/-- The search finds the controllers up to the first id that cannot be looked up. -/
theorem addControllers_tells {store : Store} {schema : Value}
    (hschema : store.setting "schema" = .ok schema) (t : FunctionTable) {ids : List String}
    (hids : ∀ id ∈ ids, Text.starts id idMark = true) (found : Table String Value) (s : Session) :
    Tells (store.addControllers t found (ids.map .str)) s
      (t.gather found (ids.takeWhile t.looksUp)) := by
  induction ids generalizing found s with
  | nil =>
    have hclose : Tells (attempt (close t)) s (t.engine.close) := by
      refine ⟨s.log, ?_⟩
      rw [attempt_run, close]
      cases t.engine.close <;> rfl
    exact Tells.bind hclose (fun _ => endSearch_tells found _ _)
  | cons id rest ih =>
    have hid := hids id List.mem_cons_self
    cases hlooks : t.looksUp id with
    | true =>
      have hfirst := addController_tells hschema hid hlooks found s
      rw [List.takeWhile_cons_of_pos hlooks]
      refine Tells.bind hfirst.attempt (fun log => ?_)
      exact ih (fun id' hid' => hids id' (List.mem_cons_of_mem id hid')) _ _
    | false =>
      -- The look-up fails, and ends the search with what was found before.
      rcases addController_fails hschema hid hlooks found s with ⟨e, hfails⟩
      have hfirst : Tells (attempt (store.addController t found (.str id))) s (.error e) :=
        ⟨s.log, by rw [attempt_run, hfails]⟩
      rw [List.takeWhile_cons_of_neg (by simp [hlooks])]
      exact Tells.bind hfirst (fun _ => endSearch_tells found _ _)

/-- The look-up finds exactly the controllers of the ids that it reaches. -/
theorem controllers_tells (store : Store) {schema : Value}
    (hschema : store.setting "schema" = .ok schema) {ids : List String}
    (hids : ∀ id ∈ ids, Text.starts id idMark = true) (s : Session) :
    ∃ found, Tells (store.controllers (Value.ofNames ids)) s found ∧
      ∀ id, found.get? id = if id ∈ s.reached ids then s.controllerOf? id else none := by
  cases hs : s.store with
  | none =>
    refine ⟨Table.empty, ?_, fun id => by simp [Session.reached, hs]⟩
    refine Tells.bind ⟨s.log, connect_fails hs _⟩ (fun _ => ?_)
    exact endSearch_tells _ _ _
  | some t =>
    have hread : attempt (do
        let t ← connect
        let ids ← orFail (Value.ofNames ids).elements
        return (t, ids)) s = (.ok (.ok (t, ids.map .str)), s) := by
      rw [attempt_run, bind_run, connect_run hs]
      rfl
    refine ⟨t.gather Table.empty (ids.takeWhile t.looksUp), ?_, fun id => ?_⟩
    · refine Tells.bind ⟨s.log, hread⟩ (fun _ => ?_)
      exact addControllers_tells hschema t hids Table.empty _
    · rw [t.get?_gather, Table.get?_empty, Option.or_none, Session.controllerOf?, Session.reached,
        hs]
      rfl

end Store

end JavaDeps
