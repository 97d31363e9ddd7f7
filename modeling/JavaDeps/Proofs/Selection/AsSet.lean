import JavaDeps.Proofs.Pages.Controllers
import JavaDeps.Proofs.Selection.Filter

/-!
# Selections as sets

A selection depends on which ids it is made of, and not on their order or on how often an id is
given. Each page function adds the classes that belong to its controller. These are found in the
graph and not in what is chosen so far, so that the page functions can be gone through in any order.
-/

namespace JavaDeps

/-! ## Classes of controllers -/

namespace Graph

def similarNames (component name : String) : Bool :=
  Text.within (Text.lower component) (Text.lower name) ||
    Text.within (Text.lower name) (Text.lower component)

/-- The class that a component stands for: the one of this name, or the first one with a similar
name. -/
def componentClass? (g : Graph) (component : String) : Option String :=
  if g.classes.contains component then some component
  else g.classes.keys.find? (similarNames component)

/-- The classes that a controller brings in. If page functions are chosen alone, these are the class
that it stands for and all classes related to it, and otherwise only the class of its name. -/
def classesFor (g : Graph) (alone : Bool) : Value → List String
  | .str component =>
    if alone then
      (g.componentClass? component).elim []
        (fun name => name :: (g.relatedClasses name).map Related.name)
    else if g.classes.contains component then [component]
    else []
  | _ => []

end Graph

/-- For a text, the related class is the first with a similar name. -/
theorem relatedClass?_str (component : String) (names : List String) :
    relatedClass? (.str component) names =
      .ok (names.find? (Graph.similarNames component)) := by
  induction names with
  | nil => rfl
  | cons name rest ih =>
    simp only [relatedClass?, Value.textFor, bind, Except.bind, ih, List.find?_cons]
    rw [← Graph.similarNames]
    cases Graph.similarNames component name <;> rfl

theorem declaredComponent?_str (g : Graph) (component : String) :
    declaredComponent? g (.str component) =
      .ok (if g.classes.contains component then some component else none) := rfl

/-! ## Look-ups of classes -/

/-- The related classes of a name are added to those selected. -/
theorem addRelated_tells (name : String) (selected : NameSet) (s : Session) :
    Tells (addRelated name selected) s
      (selected.insertAll ((s.project.graph.relatedClasses name).map Related.name)) := by
  refine Tells.bind Tells.theGraph (fun _ => ?_)
  exact Tells.bind (Tells.sayAll _) (fun _ => Tells.pure _)

/-- The classes of a controller are added to those selected. -/
theorem addComponent_tells (selected : NameSet) (component : String) (s : Session) :
    Tells (addComponent selected (.str component)) s
      (selected.insertAll (s.project.graph.classesFor true (.str component))) := by
  refine Tells.bind Tells.theGraph (fun _ => ?_)
  refine Tells.bind (Tells.orFail (declaredComponent?_str _ _)) (fun _ => ?_)
  by_cases hdeclared : s.project.graph.classes.contains component = true
  · simp only [Graph.classesFor, Graph.componentClass?, hdeclared, if_true]
    exact addRelated_tells component _ _
  · simp only [Graph.classesFor, Graph.componentClass?, hdeclared]
    refine Tells.bind (Tells.orFail (relatedClass?_str _ _)) (fun _ => ?_)
    cases s.project.graph.classes.keys.find? (Graph.similarNames component) with
    | some name => exact Tells.bind (Tells.say _) (fun _ => addRelated_tells name _ _)
    | none => exact Tells.bind (Tells.say _) (fun _ => Tells.pure selected)

theorem addPage_tells (selected : NameSet) (id component : String) (s : Session) :
    Tells (addPage selected id (.str component)) s
      (selected.insertAll (s.project.graph.classesFor true (.str component))) := by
  rcases Store.byId_tells id s with ⟨f?, hf⟩
  refine Tells.bind hf (fun _ => ?_)
  exact Tells.bind (Tells.say _) (fun _ => addComponent_tells selected component _)

/-- No page reads what those before it have added. -/
theorem addPages_tells {pages : List (String × Value)}
    (hpages : ∀ e ∈ pages, ∃ name, e.2 = .str name)
    (selected : NameSet) (s : Session) :
    Tells (addPages selected pages) s
      (selected.insertAll (pages.flatMap (fun e => s.project.graph.classesFor true e.2))) := by
  induction pages generalizing selected s with
  | nil => exact Tells.pure selected
  | cons page rest ih =>
    rcases page with ⟨id, component⟩
    rcases hpages _ List.mem_cons_self with ⟨name, rfl⟩
    refine Tells.bind (addPage_tells selected id name s).attempt (fun log => ?_)
    rw [List.flatMap_cons, SortedSet.insertAll_append]
    exact ih (fun e he => hpages e (List.mem_cons_of_mem _ he)) _ _

/-- The classes of all controllers are added, if these are texts. -/
theorem addControllers_tells {pages : List (String × Value)}
    (hpages : ∀ e ∈ pages, ∃ name, e.2 = .str name) (g : Graph) (selected : NameSet) (s : Session) :
    Tells (addControllers g selected pages) s
      (selected.insertAll (pages.flatMap (fun e => g.classesFor false e.2))) := by
  induction pages generalizing selected s with
  | nil => exact Tells.pure selected
  | cons page rest ih =>
    rcases page with ⟨id, component⟩
    rcases hpages _ List.mem_cons_self with ⟨name, rfl⟩
    have hrest := fun selected s => ih (fun e he => hpages e (List.mem_cons_of_mem _ he)) selected s
    rw [addControllers, declaredComponent?_str, List.flatMap_cons, SortedSet.insertAll_append]
    by_cases hdeclared : g.classes.contains name = true
    · simp only [Graph.classesFor, hdeclared, if_true, Bool.false_eq_true, if_false]
      exact Tells.bind (Tells.say _) (fun _ => hrest _ _)
    · simp only [Graph.classesFor, hdeclared, Bool.false_eq_true, if_false]
      exact Tells.bind (Tells.say _) (fun _ => hrest _ _)

/-! ## Chosen classes -/

/-- The controllers in the table of page functions are texts or empty. -/
def Session.NamesControllers (s : Session) : Prop :=
  ∀ t, s.store = some t → ∀ r ∈ t.rows, r.controller = .null ∨ ∃ name, r.controller = .str name

/-- A controller that is found is a text. -/
theorem Session.NamesControllers.text {s : Session} (h : s.NamesControllers)
    {id : String} {v : Value}
    (hv : s.controllerOf? id = some v) : ∃ name, v = .str name := by
  rcases Option.bind_eq_some_iff.1 hv with ⟨t, ht, hfound⟩
  rcases FunctionTable.exists_row_of_controllerOf? hfound with ⟨r, hr, hcomponent⟩
  by_cases htruthy : r.controller.isTruthy = true
  · rw [FunctionRow.component?, if_pos htruthy] at hcomponent
    cases hcomponent
    refine (h t ht r hr).resolve_left (fun hnull => ?_)
    rw [hnull] at htruthy
    cases htruthy
  · rw [FunctionRow.component?, if_neg htruthy] at hcomponent
    cases hcomponent

def Session.pageClasses (s : Session) (c : Choice) : List String :=
  if c.pages.isEmpty || !s.project.hasStore then []
  else ((s.reached c.pages).filterMap s.controllerOf?).flatMap
    (s.project.graph.classesFor (c.classes.isEmpty && c.calls.isEmpty))

/-- What is found for chosen page functions brings in what their controllers bring in, whatever
order it is listed in. -/
theorem insertAll_found {s : Session} {pages : List String} {found : Table String Value}
    (hget : ∀ id, found.get? id = if id ∈ pages then s.controllerOf? id else none)
    (f : Value → List String) (classes : NameSet) :
    (∀ e ∈ found.entries, s.controllerOf? e.1 = some e.2) ∧
      classes.insertAll (found.entries.flatMap (fun e => f e.2)) =
        classes.insertAll ((pages.filterMap s.controllerOf?).flatMap f) := by
  -- Only which controllers were found matters, not in which order.
  have hentry : ∀ id v, (id, v) ∈ found.entries ↔ id ∈ pages ∧ s.controllerOf? id = some v := by
    intro id v
    constructor
    · intro hmem
      have hv := Table.get?_of_mem hmem
      rw [hget] at hv
      split at hv
      · exact ⟨‹_›, hv⟩
      · cases hv
    · rintro ⟨hid, hv⟩
      exact Table.mem_entries_of_get? ((hget id).trans ((if_pos hid).trans hv))
  refine ⟨fun e he => ((hentry e.1 e.2).1 he).2, SortedSet.insertAll_congr ?_ _⟩
  intro name
  simp only [List.mem_flatMap, List.mem_filterMap]
  constructor
  · rintro ⟨⟨id, v⟩, he, hname⟩
    exact ⟨v, ⟨id, (hentry id v).1 he⟩, hname⟩
  · rintro ⟨v, ⟨id, hid⟩, hname⟩
    exact ⟨(id, v), (hentry id v).2 hid, hname⟩

/-- The chosen classes are those of the ids and those that the page functions bring in. -/
theorem chosenClasses_tells {s : Session} (hs : s.NamesControllers) {c : Choice}
    (hc : ∀ id ∈ c.pages, Text.starts id Store.idMark = true) :
    Tells (chosenClasses c) s (c.classes.insertAll (s.pageClasses c)) := by
  refine Tells.bind Tells.theProject (fun log => ?_)
  unfold Session.pageClasses
  by_cases hnone : (c.pages.isEmpty || !s.project.hasStore) = true
  · simp only [hnone, if_true]
    exact Tells.pure _
  · simp only [hnone, Bool.false_eq_true, if_false]
    -- Pages that are chosen alone bring in the related classes as well.
    by_cases halone : (c.classes.isEmpty && c.calls.isEmpty) = true
    · simp only [halone, if_true]
      refine Tells.bind (Tells.say _) (fun log => ?_)
      rcases Store.standard.controllers_tells rfl hc { s with log := log } with
        ⟨found, hrun, hget⟩
      rcases insertAll_found hget (s.project.graph.classesFor true) c.classes with
        ⟨hentries, hclasses⟩
      refine Tells.bind hrun (fun log => Tells.bind (Tells.say _) (fun log => ?_))
      exact hclasses ▸ addPages_tells (fun e he => hs.text (hentries e he)) c.classes _
    · simp only [halone, Bool.false_eq_true, if_false]
      rcases Store.standard.controllers_tells rfl hc { s with log := log } with
        ⟨found, hrun, hget⟩
      rcases insertAll_found hget (s.project.graph.classesFor false) c.classes with
        ⟨hentries, hclasses⟩
      refine Tells.bind hrun (fun log => Tells.bind (Tells.say _) (fun log => ?_))
      exact hclasses ▸ addControllers_tells (fun e he => hs.text (hentries e he)) _ c.classes _

/-! ## Selections -/

/-- Ids restrict the graph to their classes, with those of the pages they reach. -/
theorem filterGraph_ofNames_run {s : Session} (hs : s.NamesControllers) {ids : List String}
    (hne : ids ≠ []) :
    ∃ log, filterGraph (Value.ofNames ids) s =
      s.selecting ((Choice.ofIds ids).classes.insertAll (s.pageClasses (Choice.ofIds ids)))
        (Choice.ofIds ids).calls log := by
  have htruthy : (Value.ofNames ids).isTruthy = true := by
    simp [Value.ofNames, Value.isTruthy, hne]
  have hpages : ∀ id ∈ (Choice.ofIds ids).pages, Text.starts id Store.idMark = true := by
    rw [Choice.ofIds_eq]
    intro id hid
    exact (List.mem_filter.1 hid).2
  rcases filterGraph_run htruthy (idTexts_ofNames ids) s with ⟨text, hrun⟩
  rcases chosenClasses_tells (s := s.report text) hs hpages with ⟨log, hchosen⟩
  rcases hrun _ _ hchosen with ⟨log', hlog⟩
  exact ⟨log', hlog⟩

/-- The page functions among the ids whose controllers are looked up. -/
def Session.reachedPages (s : Session) (ids : List String) : List String :=
  s.reached (Choice.ofIds ids).pages

/-- Every page function among the ids can be compared with those of the table. A column of texts can
be compared with every id, and a column of integers with the numerals. -/
def Session.ComparesPages (s : Session) (ids : List String) : Prop :=
  ∀ t, s.store = some t → ∀ id ∈ ids, Text.starts id "html_" = true →
    ∃ same, t.engine.equals (Store.plainId id) = .ok same

/-- If all page functions can be compared, the look-ups reach all of them or none. -/
theorem Session.ComparesPages.reached {s : Session} {ids ids' : List String}
    (hs : s.ComparesPages ids) (h : ∀ id, id ∈ ids ↔ id ∈ ids') (id : String) :
    id ∈ s.reachedPages ids ↔ id ∈ s.reachedPages ids' := by
  unfold Session.reachedPages Session.reached
  cases hstore : s.store with
  | none => exact Iff.rfl
  | some t =>
    -- All of them can be looked up or none, as the columns of the table allow it.
    have hlooks : ∀ id ∈ ids, Text.starts id "html_" = true →
        t.looksUp id = (t.require ["controller", "function_name", "function_id"]).isOk := by
      intro id hid hmark
      rcases hs t hstore id hid hmark with ⟨same, hsame⟩
      rw [FunctionTable.looksUp, FunctionTable.controllerRows, FunctionTable.withId, hsame]
      cases t.require ["controller", "function_name", "function_id"] <;> rfl
    have htake : ∀ list : List String, (∀ id, id ∈ list → id ∈ ids) →
        ((Choice.ofIds list).pages.takeWhile t.looksUp) =
          if (t.require ["controller", "function_name", "function_id"]).isOk
          then (Choice.ofIds list).pages else [] := by
      intro list hlist
      refine takeWhile_of_forall (fun id hid => ?_)
      rw [Choice.ofIds_eq] at hid
      exact hlooks id (hlist id ((List.mem_filter.1 hid).1)) (List.mem_filter.1 hid).2
    show id ∈ (Choice.ofIds ids).pages.takeWhile t.looksUp ↔
      id ∈ (Choice.ofIds ids').pages.takeWhile t.looksUp
    rw [htake ids (fun _ hid => hid), htake ids' (fun id hid => (h id).2 hid)]
    split
    · rw [Choice.ofIds_eq, Choice.ofIds_eq, List.mem_filter, List.mem_filter, h]
    · exact Iff.rfl

/-- A controller that calls a service, and two other classes. The first page function names the
controller in short, and the second one has none. -/
def loginPages : Session :=
  let file : String → SourcePath := fun name => SourcePath.ofText (name ++ ".java")
  let names := ["AuthController", "CartService", "Mail", "Menu"]
  let start := Session.ofDisk default
  { start with
    project := { start.project with
      hasStore := true
      graph := { start.project.graph with
        classes := .ofList (names.map (fun name => (name, file name)))
        declared := .ofList (names.map (fun name => (file name, SortedSet.ofList [name])))
        calls :=
          .mk [(file "AuthController", .mk [(file "CartService", Labels.ofNames ["add"])])] } }
    store := some ⟨functionColumns,
      [⟨.int 1, .str "login", .str "auth", .null⟩, ⟨.int 2, .str "cart", .null, .null⟩],
      .numbers⟩ }

/-- An id that is no numeral ends the look-ups in a column of integers, so the page functions behind
it are not found, and those before it are. -/
theorem loginPages_search_ends :
    (filterGraph (Value.ofNames ["html_1", "html_form"]) loginPages).2.project.graph.classes.keys =
        ["AuthController", "CartService"] ∧
      (filterGraph (Value.ofNames ["html_form", "html_1"])
        loginPages).2.project.graph.classes.keys =
        [] := by
  decide +kernel

end JavaDeps
