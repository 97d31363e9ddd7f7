import JavaDeps.Dot.Project
import JavaDeps.Proofs.Analysis.Selected
import JavaDeps.Proofs.Analysis.Upheld
import JavaDeps.Proofs.Operations

/-!
# Selecting functions again

What is found for the selected functions is recorded, and the drawing shows what is recorded. A
later selection replaces the selected functions but takes no record back, so that it records as much
as if the earlier functions were still selected.
-/

namespace JavaDeps

/-! ## Records -/

namespace Facts

variable {f f' : Facts} {file : SourcePath} {name : String} {deps : NameSet}

/-- The same files are listed with the same dependencies of the same functions. -/
structure SameRecords (f f' : Facts) : Prop where
  files : ∀ file, f.methodDependencies.contains file = true ↔
    f'.methodDependencies.contains file = true
  records : ∀ file name, f.recorded? file name = f'.recorded? file name

theorem get?_of_recorded? (h : f.recorded? file name = some deps) :
    ∃ functions, f.methodDependencies.get? file = some functions ∧
      functions.get? name = some deps := by
  unfold recorded? Table.getD at h
  cases hrow : f.methodDependencies.get? file with
  | none =>
    rw [hrow] at h
    cases h
  | some functions =>
    rw [hrow] at h
    exact ⟨functions, rfl, h⟩

/-- A file is listed if it was listed before or something is recorded for it. -/
def ListsRecorded (f f' : Facts) : Prop :=
  ∀ file, f'.methodDependencies.contains file = true ↔
    f.methodDependencies.contains file = true ∨ ∃ name, (f'.recorded? file name).isSome = true

theorem ListsRecorded.refl (f : Facts) : f.ListsRecorded f := by
  refine fun file => ⟨Or.inl, fun h => h.elim id ?_⟩
  rintro ⟨name, hname⟩
  rcases Option.isSome_iff_exists.1 hname with ⟨deps, hdeps⟩
  rcases get?_of_recorded? hdeps with ⟨functions, hrow, -⟩
  rw [Table.contains_eq_isSome, hrow]
  rfl

/-- Keeping dependencies removes no record. -/
theorem ListsRecorded.keep (h : f.ListsRecorded f') (file : SourcePath) (name : String)
    (deps : NameSet) : f.ListsRecorded (f'.keepDependencies file name deps) := by
  intro file'
  have hlisted : (f'.keepDependencies file name deps).methodDependencies.contains file' =
      (file == file' || f'.methodDependencies.contains file') := by
    rw [Table.contains_eq_isSome, Table.contains_eq_isSome, keepDependencies, Table.get?_alter]
    cases file == file' <;> rfl
  rw [hlisted]
  by_cases hfile : file = file'
  · -- The file is listed now, and its function is recorded.
    subst hfile
    refine iff_of_true (by simp) (Or.inr ⟨name, ?_⟩)
    simp [recorded?_keepDependencies]
  · simpa [recorded?_keepDependencies, hfile, Ne.symm hfile] using h file'

/-- What is recorded for a file that implements a service is drawn. -/
theorem drawn_of_recorded? (hfile : file ∈ f.serviceFiles.values)
    (h : f.recorded? file name = some deps) {lines : List String} {st : Dot.Statement}
    (hst : st ∈ Dot.functionStatements lines file.stem name deps) :
    st ∈ f.implementationStatements lines := by
  rcases List.mem_map.1 hfile with ⟨e, he, rfl⟩
  rcases get?_of_recorded? h with ⟨functions, hrow, hdeps⟩
  refine List.mem_append_right _ (List.mem_flatMap.2 ⟨e, he, ?_⟩)
  rw [hrow]
  exact List.mem_append_right _ (List.mem_flatMap.2 ⟨_, Table.mem_entries_of_get? hdeps, hst⟩)

end Facts

/-- What stays true of a project when functions are selected and when their dependencies are kept is
kept true by a selection of functions. -/
theorem selectFunctions_upholds {I : Project → Prop}
    (hselect : ∀ p selected, I p → I { p with facts := { p.facts with selected := selected } })
    (hkeep : ∀ p file name deps, I p →
      I { p with facts := p.facts.keepDependencies file name deps })
    (names : Value) : Upholds I (selectFunctions names) := by
  refine Upholds.bind (Upholds.of_preserves (Preserves.orFail _)) (fun selected => ?_)
  refine Upholds.bind (fun s hs => hselect s.project selected hs) (fun _ => ?_)
  refine Upholds.bind (Upholds.of_preserves (Preserves.orFail _)) (fun texts => ?_)
  refine Upholds.say_then _ (Upholds.theProject_bind (fun p _ => ?_))
  refine Upholds.forM (fun file _ => Upholds.sourceText?_bind (fun text? => ?_))
  cases text? with
  | none => exact Upholds.pure ()
  | some text =>
    refine Upholds.say_then _ (Upholds.forM (fun key _ => ?_))
    refine Upholds.bind (Upholds.of_preserves (dependenciesOf_preserves _ _ _)) (fun deps => ?_)
    split
    · refine Upholds.bind (fun s hs => hkeep s.project file key.display deps hs) (fun _ => ?_)
      exact Upholds.say_then _ (Upholds.forM (fun line _ => Upholds.say line))
    · exact Upholds.pure ()

/-! ## Selections -/

namespace Session

/-- A session after a selection of functions. For each of them and each file that implements a
service, what is found is recorded, and what was recorded stays where nothing is found. -/
structure Records (s : Session) (names : List String) (t : Session) : Prop where
  find : t.literalFind? = s.literalFind?
  services : t.project.facts.serviceFiles = s.project.facts.serviceFiles
  listed : s.project.facts.ListsRecorded t.project.facts
  recorded : ∀ file name, t.project.facts.recorded? file name =
    if file ∈ s.project.facts.serviceFiles.values ∧ name ∈ names then
      (s.literalFind? file name).or (s.project.facts.recorded? file name)
    else s.project.facts.recorded? file name

namespace Records

variable {s t u : Session} {earlier names : List String} {file : SourcePath} {name : String}

/-- What is found for a selected function is recorded. -/
theorem recorded_of_find (h : s.Records names t)
    (hfile : file ∈ s.project.facts.serviceFiles.values)
    (hname : name ∈ names) {deps : NameSet} (hdeps : s.literalFind? file name = some deps) :
    t.project.facts.recorded? file name = some deps := by
  rw [h.recorded, if_pos ⟨hfile, hname⟩, hdeps]
  rfl

/-- No record is taken back. -/
theorem isSome_recorded? (h : s.Records names t)
    (hsome : (s.project.facts.recorded? file name).isSome = true) :
    (t.project.facts.recorded? file name).isSome = true := by
  rw [h.recorded]
  split
  · rw [Option.isSome_or, hsome, Bool.or_true]
  · exact hsome

/-- Two selections record what one selection of all their functions records. -/
theorem trans (h : s.Records earlier t) (h' : t.Records names u) :
    s.Records (earlier ++ names) u where
  find := h'.find.trans h.find
  services := h'.services.trans h.services
  listed file := by
    rw [h'.listed file, h.listed file]
    constructor
    · rintro ((hbefore | ⟨name, hname⟩) | hafter)
      · exact Or.inl hbefore
      · exact Or.inr ⟨name, h'.isSome_recorded? hname⟩
      · exact Or.inr hafter
    · rintro (hbefore | hafter)
      · exact Or.inl (Or.inl hbefore)
      · exact Or.inr hafter
  recorded file name := by
    rw [h'.recorded, h.recorded, h.services, h.find]
    by_cases hfile : file ∈ s.project.facts.serviceFiles.values
    · by_cases hearlier : name ∈ earlier
      · -- What is found a second time is what was found before.
        cases s.literalFind? file name <;> simp [hfile, hearlier]
      · simp [hearlier]
    · simp [hfile]

/-- Records agree exactly if what the earlier selection alone has found was recorded before. -/
theorem sameRecords_iff (ht : s.Records (earlier ++ names) t) (hu : s.Records names u) :
    t.project.facts.SameRecords u.project.facts ↔
      ∀ file ∈ s.project.facts.serviceFiles.values, ∀ name ∈ earlier, name ∉ names →
        ∀ deps, s.literalFind? file name = some deps →
          s.project.facts.recorded? file name = some deps := by
  constructor
  · intro hsame file hfile name hearlier hname deps hdeps
    have hold : u.project.facts.recorded? file name = s.project.facts.recorded? file name := by
      rw [hu.recorded, if_neg (fun h => hname h.2)]
    rw [← hold, ← hsame.records]
    exact ht.recorded_of_find hfile (List.mem_append_left _ hearlier) hdeps
  · intro hold
    have hrecords : ∀ file name, t.project.facts.recorded? file name =
        u.project.facts.recorded? file name := by
      intro file name
      rw [ht.recorded, hu.recorded]
      by_cases hname : name ∈ names
      · simp [hname]
      · by_cases hearlier : file ∈ s.project.facts.serviceFiles.values ∧ name ∈ earlier
        · rw [if_pos ⟨hearlier.1, List.mem_append_left _ hearlier.2⟩, if_neg (fun h => hname h.2)]
          cases hfind : s.literalFind? file name with
          | none => rfl
          | some deps => exact (hold file hearlier.1 name hearlier.2 hname deps hfind).symm
        · simp [hname, hearlier]
    refine ⟨fun file => ?_, hrecords⟩
    rw [ht.listed, hu.listed]
    simp only [hrecords]

end Records

end Session

/-- A selection of ordinary names records what is found for them. -/
theorem selectFunctions_records {names : List String}
    (hnames : ∀ name ∈ names, Java.IsOrdinaryName name) (s : Session) :
    Leads (selectFunctions (Value.ofNames names)) s (fun _ t => s.Records names t) := by
  rcases selectFunctions_leads hnames s with ⟨x, t, hrun, hlooked⟩
  have hfind : ∀ {t : Session}, t.disk = s.disk →
      t.project.facts.fieldTypes = s.project.facts.fieldTypes →
      t.literalFind? = s.literalFind? := by
    intro t hdisk htypes
    funext file name
    simp only [Session.literalFind?, hdisk, fieldTypeIn?_congr htypes]
  have hlisted : s.project.facts.ListsRecorded t.project.facts := by
    have hupholds := selectFunctions_upholds (I := fun p => s.project.facts.ListsRecorded p.facts)
      (fun _ _ hp => hp) (fun _ file name deps hp => hp.keep file name deps) (Value.ofNames names) s
      (Facts.ListsRecorded.refl _)
    rwa [hrun] at hupholds
  refine Leads.of_run hrun ⟨?_, ?_, hlisted, fun file name => ?_⟩
  · rcases hlooked.frame with ⟨records, log, rfl⟩
    exact hfind rfl rfl
  · rcases hlooked.frame with ⟨records, log, rfl⟩
    rfl
  · have hseen : (file, name) ∈
        s.project.facts.serviceFiles.values.flatMap (s.choosing names).functionsIn ↔
        file ∈ s.project.facts.serviceFiles.values ∧ name ∈ names := by
      simp only [List.mem_flatMap, Session.mem_functionsIn_choosing]
      constructor
      · rintro ⟨_, hfile, rfl, hname⟩
        exact ⟨hfile, hname⟩
      · rintro ⟨hfile, hname⟩
        exact ⟨file, hfile, rfl, hname⟩
    rw [hlooked.recorded, hfind rfl rfl]
    simp only [hseen]
    rfl

/-- Two selections record what the names of both lead to. -/
theorem reselectFunctions_records {earlier names : List String}
    (hearlier : ∀ name ∈ earlier, Java.IsOrdinaryName name)
    (hnames : ∀ name ∈ names, Java.IsOrdinaryName name) (s : Session) :
    Leads (do selectFunctions (Value.ofNames earlier); selectFunctions (Value.ofNames names)) s
      (fun _ t => s.Records (earlier ++ names) t) := by
  refine Leads.bind ((selectFunctions_records hearlier s).weaken (fun _ t ht => ?_))
  exact (selectFunctions_records hnames t).weaken (fun _ _ hlater => ht.trans hlater)

/-- Selecting functions and then others succeeds, as selecting only the others does. The same is
recorded in both cases exactly if everything that is found for a function that was selected only at
first was already recorded before. What is found for functions that are no longer selected is drawn
as well. -/
theorem reselected_records_iff {earlier names : List String}
    (hearlier : ∀ name ∈ earlier, Java.IsOrdinaryName name)
    (hnames : ∀ name ∈ names, Java.IsOrdinaryName name) (s : Session) :
    ∃ t u,
      (do selectFunctions (Value.ofNames earlier); selectFunctions (Value.ofNames names) :
        Action Unit) s = (.ok (), t) ∧
      selectFunctions (Value.ofNames names) s = (.ok (), u) ∧
      (t.project.facts.SameRecords u.project.facts ↔
        ∀ file ∈ s.project.facts.serviceFiles.values, ∀ name ∈ earlier, name ∉ names →
          ∀ deps, s.literalFind? file name = some deps →
            s.project.facts.recorded? file name = some deps) ∧
      ∀ file ∈ s.project.facts.serviceFiles.values, ∀ name, name ∈ earlier ∨ name ∈ names →
        ∀ deps, s.literalFind? file name = some deps →
          ∀ lines, ∀ st ∈ Dot.functionStatements lines file.stem name deps,
            st ∈ t.project.facts.implementationStatements lines := by
  rcases reselectFunctions_records hearlier hnames s with ⟨_, t, ht, hboth⟩
  rcases selectFunctions_records hnames s with ⟨_, u, hu, hlater⟩
  refine ⟨t, u, ht, hu, hboth.sameRecords_iff hlater, ?_⟩
  intro file hfile name hname deps hdeps lines st hst
  refine Facts.drawn_of_recorded? (hboth.services ▸ hfile) ?_ hst
  exact hboth.recorded_of_find hfile (List.mem_append.2 hname) hdeps

/-- A function that is found is recorded once it is selected, and one that is not found leaves no
trace. -/
theorem reselected_implementedService :
    (∀ name ∈ ["f", "m"], Java.IsOrdinaryName name) ∧ (∀ name ∈ ["m"], Java.IsOrdinaryName name) ∧
    ∃ t u,
      (do selectFunctions (Value.ofNames ["f", "m"]); selectFunctions (Value.ofNames ["m"]) :
        Action Unit) implementedService = (.ok (), t) ∧
      selectFunctions (Value.ofNames ["m"]) implementedService = (.ok (), u) ∧
      t.project.facts.SameRecords u.project.facts := by
  have hearlier : ∀ name ∈ ["f", "m"], Java.IsOrdinaryName name := by decide
  have hnames : ∀ name ∈ ["m"], Java.IsOrdinaryName name := by decide
  have hnone : implementedService.literalFind? (SourcePath.ofText "A.java") "f" = none := by
    decide +kernel
  rcases reselected_records_iff hearlier hnames implementedService with ⟨t, u, ht, hu, hsame, -⟩
  refine ⟨hearlier, hnames, t, u, ht, hu, hsame.2 ?_⟩
  intro file hfile name hname hother deps hdeps
  cases List.mem_singleton.1 hfile
  rcases List.mem_cons.1 hname with rfl | hname
  · cases hnone.symm.trans hdeps
  · exact absurd hname hother

/-- A service and the file that implements it, with two functions. -/
def servingFiles : Disk :=
  ((default : Disk).put (SourcePath.ofText "AService.java")
      (.text "interface AService \x7b int m(); \x7d")).put
    (SourcePath.ofText "AServiceImpl.java")
    (.text "class C \x7b int m() \x7b bService.f(); \x7d int k() \x7b bService.g(); \x7d \x7d")

/-- A function that is no longer selected is still recorded and drawn. -/
theorem unselected_function_drawn :
    ∃ s t u,
      (do openProject .deep "."; analyze : Action Unit) (Session.ofDisk servingFiles) =
        (.ok (), s) ∧
      (do selectFunctions (Value.ofNames ["m"]); selectFunctions (Value.ofNames ["k"]) :
        Action Unit) s = (.ok (), t) ∧
      selectFunctions (Value.ofNames ["k"]) s = (.ok (), u) ∧
      t.project.facts.recorded? (SourcePath.ofText "AServiceImpl.java") "m" =
        some (SortedSet.ofList ["bService#f"]) ∧
      u.project.facts.recorded? (SourcePath.ofText "AServiceImpl.java") "m" = none ∧
      .edge ⟨"AServiceImpl", "bService", "f (m)", ", color=\"blue\""⟩ ∈
        t.project.facts.implementationStatements [] := by
  have hearlier : ∀ name ∈ ["m"], Java.IsOrdinaryName name := by decide
  have hnames : ∀ name ∈ ["k"], Java.IsOrdinaryName name := by decide
  rcases openProject_analyze_starts .deep "." (Session.ofDisk servingFiles) with ⟨_, s, hrun, -⟩
  have hanalyzed : s.project.facts.serviceFiles.values = [SourcePath.ofText "AServiceImpl.java"] ∧
      s.project.facts.recorded? (SourcePath.ofText "AServiceImpl.java") "m" = none ∧
      s.literalFind? (SourcePath.ofText "AServiceImpl.java") "m" =
        some (SortedSet.ofList ["bService#f"]) := by
    have hs : s = ((do openProject .deep "."; analyze : Action Unit)
        (Session.ofDisk servingFiles)).2 := by rw [hrun]
    rw [hs]
    decide +kernel
  rcases hanalyzed with ⟨hservices, hnone, hfind⟩
  have hfile : SourcePath.ofText "AServiceImpl.java" ∈ s.project.facts.serviceFiles.values := by
    rw [hservices]
    exact List.mem_singleton_self _
  rcases reselectFunctions_records hearlier hnames s with ⟨_, t, ht, hboth⟩
  rcases selectFunctions_records hnames s with ⟨_, u, hu, hlater⟩
  have hrecorded := hboth.recorded_of_find hfile List.mem_cons_self hfind
  refine ⟨s, t, u, hrun, ht, hu, hrecorded, ?_, ?_⟩
  · rw [hlater.recorded, if_neg (fun h => absurd h.2 (by decide))]
    exact hnone
  · exact Facts.drawn_of_recorded? (hboth.services ▸ hfile) hrecorded (by decide +kernel)

end JavaDeps
