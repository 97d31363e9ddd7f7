import JavaDeps.Proofs.Analysis.Plain
import JavaDeps.Selection.Pages

/-!
# Look-ups before a selection

Before a selection restricts the graph, page functions and their controllers are looked up, related
classes are collected and functions are looked at. Whether these look-ups succeed or fail, they
leave the graph alone, and the files of the interfaces and the page functions as well.
-/

namespace JavaDeps

/-- The part of the session stays the same when something is reported, when functions are selected
to be looked at and when their dependencies are kept. -/
structure Apart {γ : Type} (view : Session → γ) : Prop where
  say : ∀ text, Preserves view (say text)
  select : ∀ selected, Preserves view (modifyProject
    (fun p => { p with facts := { p.facts with selected := selected } }))
  keep : ∀ file name deps, Preserves view (modifyProject
    (fun p => { p with facts := p.facts.keepDependencies file name deps }))

/-- Whether it succeeds or fails, the operation leaves the graph and the files of the interfaces as
they were. -/
abbrev KeepsBasis {α : Type} (a : Action α) : Prop := Preserves Session.basis a

/-- Reports and looked-up functions are apart from the basis of a session. -/
theorem basis_apart : Apart Session.basis :=
  ⟨fun _ _ => rfl, fun _ _ => rfl, fun _ _ _ _ => rfl⟩

theorem interfaces_apart : Apart (fun s => s.project.facts.interfaces) :=
  ⟨fun _ _ => rfl, fun _ _ => rfl, fun _ _ _ _ => rfl⟩

theorem pages_apart : Apart (fun s => s.project.pages) :=
  ⟨fun _ _ => rfl, fun _ _ => rfl, fun _ _ _ _ => rfl⟩

theorem say_keepsBasis (text : String) : KeepsBasis (say text) := basis_apart.say text

section

variable {γ : Type} {view : Session → γ} (hview : Apart view)
include hview

theorem sayAll_preserves (texts : List String) : Preserves view (sayAll texts) :=
  Preserves.forM hview.say texts

theorem say_then_preserves {α : Type} {a : Action α} (text : String) (h : Preserves view a) :
    Preserves view (say text >>= fun _ => a) :=
  Preserves.bind (hview.say text) (fun _ => h)

/-! ## The store -/

namespace Store

/-- Looking up a page function changes nothing that is apart from the report. -/
theorem byId_preserves (store : Store) (id : Value) : Preserves view (store.byId id) := by
  refine Preserves.bind (Preserves.attempt ?_) (fun tried => ?_)
  · refine Preserves.bind (connect_preserves _) (fun t => ?_)
    refine Preserves.bind (Preserves.orFail _) (fun text => ?_)
    refine Preserves.bind (Preserves.orFail _) (fun _ => ?_)
    refine Preserves.bind (Preserves.orFail _) (fun _ => ?_)
    refine Preserves.bind (Preserves.orFail _) (fun rows => ?_)
    exact Preserves.bind (Preserves.orFail _) (fun _ => Preserves.pure _)
  · cases tried with
    | ok found => exact Preserves.pure found
    | error e => exact say_then_preserves hview _ (Preserves.pure none)

theorem addController_preserves (store : Store) (t : FunctionTable) (found : Table String Value)
    (id : Value) : Preserves view (store.addController t found id) := by
  refine Preserves.bind (Preserves.orFail _) (fun text => ?_)
  split
  · refine Preserves.bind (Preserves.orFail _) (fun _ => ?_)
    refine Preserves.bind (Preserves.orFail _) (fun _ => ?_)
    refine Preserves.bind (Preserves.orFail _) (fun rows => ?_)
    split
    · split
      · exact say_then_preserves hview _ (Preserves.pure _)
      · exact say_then_preserves hview _ (Preserves.pure _)
    · exact say_then_preserves hview _ (Preserves.pure _)
  · exact Preserves.pure found

theorem endSearch_preserves (found : Table String Value) (r : Except Fault Unit) :
    Preserves view (endSearch found r) := by
  cases r with
  | ok _ => exact Preserves.pure found
  | error e => exact say_then_preserves hview _ (Preserves.pure found)

theorem addControllers_preserves (store : Store) (t : FunctionTable) (ids : List Value)
    (found : Table String Value) : Preserves view (store.addControllers t found ids) := by
  induction ids generalizing found with
  | nil =>
    have hclose : Preserves view (attempt (close t)) := Preserves.attempt (Preserves.orFail _)
    exact Preserves.bind hclose (fun r => endSearch_preserves hview found r)
  | cons id rest ih =>
    have hfirst : Preserves view (attempt (store.addController t found id)) :=
      Preserves.attempt (addController_preserves hview store t found id)
    refine Preserves.bind hfirst (fun tried => ?_)
    cases tried with
    | ok found => exact ih found
    | error e => exact endSearch_preserves hview found _

/-- Looking up controllers changes nothing that is apart from the report. -/
theorem controllers_preserves (store : Store) (ids : Value) :
    Preserves view (store.controllers ids) := by
  refine Preserves.bind (Preserves.attempt ?_) (fun tried => ?_)
  · refine Preserves.bind (connect_preserves _) (fun t => ?_)
    exact Preserves.bind (Preserves.orFail _) (fun _ => Preserves.pure _)
  · cases tried with
    | ok found => exact addControllers_preserves hview store found.1 found.2 Table.empty
    | error e => exact endSearch_preserves hview _ _

end Store

/-! ## Classes of page functions -/

theorem addRelated_preserves (name : String) (selected : NameSet) :
    Preserves view (addRelated name selected) := by
  refine Preserves.theGraph_bind (fun g => ?_)
  exact Preserves.bind (sayAll_preserves hview _) (fun _ => Preserves.pure _)

theorem addComponent_preserves (selected : NameSet) (component : Value) :
    Preserves view (addComponent selected component) := by
  refine Preserves.theGraph_bind (fun g => ?_)
  refine Preserves.bind (Preserves.orFail _) (fun declared? => ?_)
  cases declared? with
  | some name => exact addRelated_preserves hview name _
  | none =>
    refine Preserves.bind (Preserves.orFail _) (fun related? => ?_)
    cases related? with
    | some name => exact say_then_preserves hview _ (addRelated_preserves hview name _)
    | none => exact say_then_preserves hview _ (Preserves.pure selected)

theorem addPage_preserves (selected : NameSet) (id : String) (component : Value) :
    Preserves view (addPage selected id component) := by
  refine Preserves.bind (Store.byId_preserves hview _ _) (fun f? => ?_)
  exact say_then_preserves hview _ (addComponent_preserves hview selected component)

theorem addPages_preserves (pages : List (String × Value)) (selected : NameSet) :
    Preserves view (addPages selected pages) := by
  induction pages generalizing selected with
  | nil => exact Preserves.pure selected
  | cons page rest ih =>
    have hfirst : Preserves view (attempt (addPage selected page.1 page.2)) :=
      Preserves.attempt (addPage_preserves hview selected page.1 page.2)
    refine Preserves.bind hfirst (fun tried => ?_)
    -- A page that fails ends the loop with what was selected before it.
    cases tried with
    | ok selected => exact ih selected
    | error e => exact say_then_preserves hview _ (Preserves.pure selected)

theorem addControllers_preserves (g : Graph) (pages : List (String × Value)) (selected : NameSet) :
    Preserves view (addControllers g selected pages) := by
  induction pages generalizing selected with
  | nil => exact Preserves.pure selected
  | cons page rest ih =>
    unfold addControllers
    split
    · exact say_then_preserves hview _ (ih _)
    · exact say_then_preserves hview _ (ih selected)
    · exact say_then_preserves hview _ (Preserves.pure selected)

/-- Gathering the chosen classes changes nothing that is apart from the report. -/
theorem chosenClasses_preserves (c : Choice) : Preserves view (chosenClasses c) := by
  refine Preserves.theProject_bind (fun p => ?_)
  split
  · exact Preserves.pure _
  · split
    · refine say_then_preserves hview _ ?_
      refine Preserves.bind (Store.controllers_preserves hview _ _) (fun found => ?_)
      exact say_then_preserves hview _ (addPages_preserves hview found.entries c.classes)
    · refine Preserves.bind (Store.controllers_preserves hview _ _) (fun found => ?_)
      exact say_then_preserves hview _
        (addControllers_preserves hview p.graph found.entries c.classes)

/-! ## Chosen page functions -/

theorem findPage_preserves (n : Int) : Preserves view (findPage n) := by
  refine Preserves.theProject_bind (fun p => ?_)
  split
  · exact Store.byId_preserves hview _ _
  · exact Preserves.throw _

/-- Searching for pages changes nothing that is apart from the report. -/
theorem findPages_preserves (numbers : List Int) (found : PagesFound) :
    Preserves view (findPages found numbers) := by
  induction numbers generalizing found with
  | nil => exact Preserves.pure _
  | cons n rest ih =>
    have hfirst : Preserves view (attempt (findPage n)) :=
      Preserves.attempt (findPage_preserves hview n)
    refine Preserves.bind hfirst (fun tried => ?_)
    -- The look-up fails, finds nothing or finds a function, whose name need not be a text.
    rcases tried with e | _ | f
    · exact Preserves.pure _
    · exact ih found
    · dsimp only
      split
      · exact Preserves.pure _
      · exact ih _

/-! ## Selected functions -/

omit hview in
theorem sourceText?_preserves (file : SourcePath) :
    Preserves view (sourceText? file) := fun _ => rfl

omit hview in
theorem dependenciesOf_preserves (text : List Char) (name : String) (file : SourcePath) :
    Preserves view (dependenciesOf text name file) := by
  refine Preserves.theProject_bind (fun p => ?_)
  refine Preserves.bind (sourceText?_preserves file) (fun text? => ?_)
  split
  · exact Preserves.pure _
  · exact Preserves.throw _

theorem lookAtMethod_preserves (file : SourcePath) (text : List Char) (name : String) :
    Preserves view (lookAtMethod file text name) := by
  refine Preserves.bind (dependenciesOf_preserves text name file) (fun deps => ?_)
  split
  · refine Preserves.bind (hview.keep file name deps) (fun _ => ?_)
    exact say_then_preserves hview _ (sayAll_preserves hview _)
  · exact Preserves.pure ()

/-- Looking at the selected functions changes nothing that is apart from them. -/
theorem lookAtSelected_preserves : Preserves view lookAtSelected := by
  refine Preserves.theProject_bind (fun p => ?_)
  refine Preserves.forM (fun file => ?_) _
  refine Preserves.bind (sourceText?_preserves file) (fun text? => ?_)
  cases text? with
  | none => exact Preserves.pure ()
  | some text =>
    refine say_then_preserves hview _ (Preserves.forM (fun name => ?_) _)
    exact lookAtMethod_preserves hview file text name.display

theorem selectFunctions_preserves (names : Value) : Preserves view (selectFunctions names) := by
  refine Preserves.bind (Preserves.orFail _) (fun selected => ?_)
  refine Preserves.bind (hview.select selected) (fun _ => ?_)
  refine Preserves.bind (Preserves.orFail _) (fun texts => ?_)
  exact say_then_preserves hview _ (lookAtSelected_preserves hview)

/-! ## Selections -/

/-- A selection preserves what changes of the graph preserve. -/
theorem filterGraph_preserves (hgraph : ∀ f, Preserves view (modifyGraph f)) (ids : Value) :
    Preserves view (filterGraph ids) := by
  unfold filterGraph
  split
  · exact say_then_preserves hview _ (Preserves.pure ())
  · refine Preserves.bind (Preserves.orFail _) (fun count => say_then_preserves hview _ ?_)
    refine Preserves.bind (Preserves.orFail _) (fun texts => ?_)
    refine Preserves.bind (chosenClasses_preserves hview _) (fun classes => ?_)
    refine say_then_preserves hview _ (Preserves.theGraph_bind (fun g => ?_))
    split
    · refine say_then_preserves hview _ ?_
      exact Preserves.bind (hgraph _) (fun _ => hview.say _)
    · refine Preserves.bind (Preserves.orFail _) (fun g' => ?_)
      exact Preserves.bind (hgraph _) (fun _ => hview.say _)

/-- The selection of calls preserves what changes of the graph preserve. -/
theorem filterCalls_preserves (hgraph : ∀ f, Preserves view (modifyGraph f)) (names : Value) :
    Preserves view (filterCalls names) := by
  unfold filterCalls
  split
  · refine Preserves.bind (Preserves.orFail _) (fun texts => ?_)
    refine say_then_preserves hview _ (Preserves.theGraph_bind (fun g => ?_))
    refine Preserves.bind (Preserves.orFail _) (fun kept => ?_)
    refine Preserves.bind (hgraph _) (fun _ => ?_)
    exact Preserves.theGraph_bind (fun g' => hview.say _)
  · exact Preserves.pure ()

end

/-! ## The graph -/

theorem chosenClasses_keepsBasis (c : Choice) : KeepsBasis (chosenClasses c) :=
  chosenClasses_preserves basis_apart c

/-- Page functions are kept beside the graph. -/
theorem keepPages_keepsBasis (functions : List PageFunction) (components : Table String Value)
    {report : PageFunction → Value → Action Unit} (hreport : ∀ f v, KeepsBasis (report f v)) :
    KeepsBasis (keepPages functions components report) := by
  have hfirst : KeepsBasis
      (modifyProject (fun p => { p with pages := { functions := functions } })) :=
    fun _ => rfl
  refine Preserves.bind hfirst (fun _ => Preserves.forM (fun f => ?_) functions)
  refine Preserves.theProject_bind (fun p => ?_)
  refine Preserves.bind (Preserves.orFail _) (fun links => ?_)
  have hlinks : KeepsBasis (modifyProject (fun p => { p with pages := links })) := fun _ => rfl
  refine Preserves.bind hlinks (fun _ => ?_)
  split
  · exact hreport f _
  · exact Preserves.pure ()

theorem choosePages_keepsBasis (ids : List String) : KeepsBasis (choosePages ids) := by
  unfold choosePages
  split
  · exact Preserves.pure _
  · refine Preserves.bind (findPages_preserves basis_apart _ _) (fun found => ?_)
    rcases found with ⟨found, fault?⟩
    cases fault? with
    | some e => exact Preserves.pure _
    | none =>
      refine Preserves.bind (Preserves.attempt ?_) (fun tried => ?_)
      · refine Preserves.bind (Store.controllers_preserves basis_apart _ _) (fun components => ?_)
        exact keepPages_keepsBasis _ _ (fun _ _ => Preserves.pure ())
      · cases tried with
        | ok _ => exact Preserves.pure _
        | error e => exact Preserves.pure _

/-! ## Selections with page functions -/

/-- What can be put after operations that leave the graph alone holds of a selection with page
functions, if it holds of the two steps that change the graph. -/
theorem filterPaged_rule {P : Action Unit → Prop} {ids : Value}
    (hread : ∀ {r : Except Fault (List String)} {f : List String → Action Unit},
      (∀ texts, r = .ok texts → P (f texts)) → P (orFail r >>= f))
    (hafter : ∀ {α : Type} {a : Action α} {f : α → Action Unit}, KeepsBasis a →
      (∀ x, P (f x)) → P (a >>= f))
    (hnarrow : ∀ texts, idTexts ids = .ok texts → ∀ names, names ≠ [] →
      P (do filterCalls (Value.ofNames names); filterGraph ids))
    (hfilter : P (filterGraph ids)) : P (filterPaged ids) := by
  refine hread (fun texts htexts => ?_)
  -- What follows once the names of the functions are known, whichever way they were found.
  have hnamed : ∀ names : List String, P
      (if (!names.isEmpty) = true then do
        say ("🎯 Setting selected functions for implementation analysis: "
          ++ (Value.ofNames names).quoted)
        selectFunctions (Value.ofNames names)
        filterCalls (Value.ofNames names)
        filterGraph ids
      else filterGraph ids) := by
    intro names
    split
    · rename_i hsome
      refine hafter (say_keepsBasis _) (fun _ => ?_)
      refine hafter (selectFunctions_preserves basis_apart _) (fun _ => ?_)
      exact hnarrow texts htexts names (by simpa using hsome)
    · exact hfilter
  dsimp only
  split
  · refine hafter (choosePages_keepsBasis _) (fun found => ?_)
    split
    · exact hafter (say_keepsBasis _) (fun _ => hnamed _)
    · exact hnamed _
  · exact hnamed _

end JavaDeps
