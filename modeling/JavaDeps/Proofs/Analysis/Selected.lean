import JavaDeps.Analysis.Selected
import JavaDeps.Proofs.Alike
import JavaDeps.Proofs.Analysis.Plain
import JavaDeps.Proofs.Except
import JavaDeps.Proofs.Java.Signatures

/-!
# A closer look at functions

The name of a function that is selected is read as a written pattern. A name whose characters stand
for themselves is looked for as it is written, and what is recorded for it are the dependencies of
the function of this name. Other names may be refused or find other functions.
-/

namespace JavaDeps

/-! ## Names as keys -/

theorem texts_ofNames (names : List String) : (Value.ofNames names).texts = .ok names := by
  have htexts : ∀ (names : List String) (place : Nat),
      Value.textsFrom place (names.map Value.str) = .ok names := by
    intro names
    induction names with
    | nil => exact fun _ => rfl
    | cons name rest ih =>
      intro place
      show (Value.textsFrom (place + 1) (rest.map Value.str)).map (name :: ·) = _
      rw [ih]
      rfl
  exact htexts names 0

theorem keySet_ofNames (names : List String) :
    keySet (Value.ofNames names) = .ok (SortedSet.ofList (names.map Atom.str)) := by
  have hkeys : (names.map Value.str).mapM Value.asKey = .ok (names.map Atom.str) := by
    induction names with
    | nil => rfl
    | cons name rest ih =>
      rw [List.map_cons, List.mapM_cons, ih]
      rfl
  show ((names.map Value.str).mapM Value.asKey >>= _) = _
  rw [hkeys]
  rfl

/-- The selected names are those that were given. -/
theorem mem_display_ofNames {names : List String} {name : String} :
    (∃ key ∈ (SortedSet.ofList (names.map Atom.str)).toList, key.display = name) ↔
      name ∈ names := by
  constructor
  · rintro ⟨key, hkey, rfl⟩
    rcases List.mem_map.1 (SortedSet.mem_of_mem_ofList hkey) with ⟨name, hname, rfl⟩
    exact hname
  · intro hname
    -- A key is only known up to what counts as equal, which for texts is the text itself.
    rcases SortedSet.exists_mem_ofList (List.mem_map_of_mem (f := Atom.str) hname) with
      ⟨key, hkey, hsame⟩
    exact ⟨key, hkey, by rw [Atom.str_beq.1 (BEq.symm hsame)]; rfl⟩

/-! ## What is recorded -/

def Facts.recorded? (f : Facts) (file : SourcePath) (name : String) : Option NameSet :=
  (f.methodDependencies.getD file Table.empty).get? name

/-- Dependencies are kept for one function of one file. -/
theorem Facts.recorded?_keepDependencies (f : Facts) (file file' : SourcePath) (name name' : String)
    (deps : NameSet) : (f.keepDependencies file name deps).recorded? file' name' =
      if (file', name') = (file, name) then some deps else f.recorded? file' name' := by
  unfold recorded? keepDependencies
  rw [Table.getD_alter]
  by_cases hfile : file = file'
  · subst hfile
    by_cases hname : name = name'
    · simp [Table.get?_set, hname]
    · simp [Table.get?_set, hname, Ne.symm hname]
  · simp [hfile, Ne.symm hfile]

/-- The types of fields do not depend on what is recorded or selected. -/
theorem fieldTypeIn?_congr {f f' : Facts} (h : f'.fieldTypes = f.fieldTypes) :
    fieldTypeIn? f' = fieldTypeIn? f := by
  funext text? file name
  simp only [fieldTypeIn?, Facts.declaredType?, h]

namespace Session

/-- The dependencies of a function in a file, found where its name stands as it is. There is nothing
to be found in a file that cannot be read, and no dependencies are nothing that is found. -/
def literalFind? (s : Session) (file : SourcePath) (name : String) : Option NameSet :=
  (s.disk.text? file).bind (fun text =>
    (Java.literalDependencies (fieldTypeIn? s.project.facts (some text) file) name.toList
      text).toOption.filter (fun deps => !deps.isEmpty))

def recording (s : Session) (records : Table SourcePath (Table String NameSet))
    (log : List String) :
    Session :=
  { s with
    project := { s.project with
      facts := { s.project.facts with methodDependencies := records } }
    log := log }

/-- A session after a look at functions of files. Nothing has changed but the report and what is
recorded for these functions, which is now what is found, if anything. -/
structure Looked (s : Session) (seen : List (SourcePath × String)) (t : Session) : Prop where
  frame : ∃ records log, t = s.recording records log
  recorded : ∀ file name, t.project.facts.recorded? file name =
    if (file, name) ∈ seen then (s.literalFind? file name).or (s.project.facts.recorded? file name)
    else s.project.facts.recorded? file name

namespace Looked

variable {s t : Session} {seen : List (SourcePath × String)}

theorem start (s : Session) : s.Looked [] s := ⟨⟨_, _, rfl⟩, fun _ _ => rfl⟩

theorem disk (h : s.Looked seen t) : t.disk = s.disk := by
  rcases h.frame with ⟨records, log, rfl⟩
  rfl

/-- To look at functions does not change the graph. -/
theorem graph (h : s.Looked seen t) : t.project.graph = s.project.graph := by
  rcases h.frame with ⟨records, log, rfl⟩
  rfl

/-- A report changes nothing else. -/
theorem tells {a : Action Unit} (h : s.Looked seen t) (ha : Tells a t ()) :
    Leads a t (fun _ u => s.Looked seen u) := by
  rcases ha with ⟨log', hrun⟩
  refine Leads.of_run hrun ⟨?_, h.recorded⟩
  rcases h.frame with ⟨records, log, rfl⟩
  exact ⟨records, log', rfl⟩

/-- Functions for which nothing is found are looked at without effect. -/
theorem without {more : List (SourcePath × String)} (h : s.Looked seen t)
    (hmore : ∀ file name, (file, name) ∈ more → s.literalFind? file name = none) :
    s.Looked (seen ++ more) t := by
  refine ⟨h.frame, fun file name => ?_⟩
  rw [h.recorded]
  by_cases hnew : (file, name) ∈ more
  · simp [hmore file name hnew]
  · simp [hnew]

/-- What is found for a function is recorded for it. -/
theorem keeping {file : SourcePath} {name : String} {deps : NameSet} (h : s.Looked seen t)
    (hfind : s.literalFind? file name = some deps) :
    s.Looked (seen ++ [(file, name)]) { t with
      project := { t.project with facts := t.project.facts.keepDependencies file name deps } } := by
  refine ⟨?_, fun file' name' => ?_⟩
  · rcases h.frame with ⟨records, log, rfl⟩
    exact ⟨_, log, rfl⟩
  · rw [Facts.recorded?_keepDependencies, h.recorded]
    by_cases hsame : (file', name') = (file, name)
    · rcases Prod.mk.inj hsame with ⟨rfl, rfl⟩
      simp [hfind]
    · simp only [hsame, if_false, List.mem_append, List.mem_singleton, or_false]

/-! ## Looking -/

/-- The dependencies of a function are found as in the text. -/
theorem dependenciesOf (h : s.Looked seen t) {file : SourcePath} {text : List Char}
    (htext : s.disk.text? file = some text) {name : String} {deps : NameSet}
    (hdeps : Java.methodDependencies (fieldTypeIn? s.project.facts (some text) file) text name =
      .ok deps) :
    Leads (JavaDeps.dependenciesOf text name file) t (fun deps' u => deps' = deps ∧ u = t) := by
  have htypes : fieldTypeIn? t.project.facts = fieldTypeIn? s.project.facts := by
    rcases h.frame with ⟨records, log, rfl⟩
    exact fieldTypeIn?_congr rfl
  refine Leads.bind (Leads.of_run (theProject_run t) ?_)
  refine Leads.bind (Leads.of_run (sourceText?_run file t) ?_)
  rw [htypes, h.disk, htext, hdeps]
  exact Leads.of_run (pure_run deps t) ⟨rfl, rfl⟩

/-- A function whose name stands for itself is found as it is written. -/
theorem lookAtMethod (h : s.Looked seen t) {file : SourcePath} {text : List Char}
    (htext : s.disk.text? file = some text) {name : String} (hname : Java.IsOrdinaryName name) :
    Leads (JavaDeps.lookAtMethod file text name) t
      (fun _ u => s.Looked (seen ++ [(file, name)]) u) := by
  rcases Java.methodDependencies_literal hname (fieldTypeIn? s.project.facts (some text) file) text
    with ⟨deps, hdeps, hliteral⟩
  have hfind : s.literalFind? file name = if deps.isEmpty then none else some deps := by
    rw [literalFind?, htext, Option.bind_some, hliteral]
    cases hempty : deps.isEmpty <;> simp [Except.toOption, Option.filter, hempty]
  refine Leads.bind ((h.dependenciesOf htext hdeps).weaken (fun deps' u hu => ?_))
  rw [hu.1, hu.2]
  -- Dependencies are kept only where there are some.
  cases hempty : deps.isEmpty with
  | true =>
    rw [hempty, if_pos rfl] at hfind
    refine Leads.of_run (pure_run () t) (h.without (fun file' name' hmem => ?_))
    rcases Prod.mk.inj (List.mem_singleton.1 hmem) with ⟨rfl, rfl⟩
    exact hfind
  | false =>
    rw [hempty, if_neg (by decide)] at hfind
    refine Leads.bind (Leads.of_run (modifyProject_run _ t) ?_)
    exact (h.keeping hfind).tells (Tells.bind (Tells.say _) (fun _ => Tells.sayAll _))

end Looked

def functionsIn (s : Session) (file : SourcePath) : List (SourcePath × String) :=
  s.project.facts.selected.toList.map (fun key => (file, key.display))

/-- All selected functions are looked at in all files of services. -/
theorem Looked.lookAtSelected {s t : Session} (h : s.Looked [] t)
    (hselected : ∀ key ∈ s.project.facts.selected.toList, Java.IsOrdinaryName key.display) :
    Leads JavaDeps.lookAtSelected t
      (fun _ u => s.Looked (s.project.facts.serviceFiles.values.flatMap s.functionsIn) u) := by
  have hfacts : t.project.facts.serviceFiles = s.project.facts.serviceFiles ∧
      t.project.facts.selected = s.project.facts.selected := by
    rcases h.frame with ⟨records, log, rfl⟩
    exact ⟨rfl, rfl⟩
  refine Leads.bind (Leads.of_run (theProject_run t) ?_)
  show Leads (t.project.facts.serviceFiles.values.forM _) t _
  rw [hfacts.1, hfacts.2]
  -- One loop goes through the files and one through the functions, and each adds what it has seen.
  refine Leads.forM_done (I := fun files u => s.Looked (files.flatMap s.functionsIn) u) []
    (fun file _ files u hu => ?_) h
  rw [List.flatMap_append, List.flatMap_singleton]
  refine Leads.bind (Leads.of_run (sourceText?_run file u) ?_)
  rw [hu.disk]
  cases htext : s.disk.text? file with
  | none =>
    -- Nothing is found in a file that cannot be read, so its functions count as seen.
    refine Leads.of_run (pure_run () u) (hu.without (fun file' name' hmem => ?_))
    rcases List.mem_map.1 hmem with ⟨key, -, hkey⟩
    rw [literalFind?, ← (Prod.mk.inj hkey).1, htext]
    rfl
  | some text =>
    refine Leads.bind ((hu.tells (Tells.say _)).weaken (fun _ v hv => ?_))
    refine Leads.forM_done
      (I := fun (keys : List Atom) w => s.Looked (files.flatMap s.functionsIn ++
      keys.map (fun key => (file, key.display))) w) [] (fun key hkey keys w hw => ?_)
      (by simpa using hv)
    rw [List.map_append, ← List.append_assoc]
    exact hw.lookAtMethod htext (hselected key hkey)

def choosing (s : Session) (names : List String) : Session :=
  { s with
    project := { s.project with
      facts := { s.project.facts with selected := SortedSet.ofList (names.map Atom.str) } } }

theorem mem_functionsIn_choosing {s : Session} {names : List String} {file file' : SourcePath}
    {name : String} :
    (file, name) ∈ (s.choosing names).functionsIn file' ↔ file = file' ∧ name ∈ names := by
  rw [← mem_display_ofNames]
  constructor
  · intro h
    rcases List.mem_map.1 h with ⟨key, hkey, heq⟩
    rcases Prod.mk.inj heq with ⟨rfl, hname⟩
    exact ⟨rfl, key, hkey, hname⟩
  · rintro ⟨rfl, key, hkey, rfl⟩
    exact List.mem_map.2 ⟨key, hkey, rfl⟩

end Session

/-- Functions whose names stand for themselves are looked at in all files that implement a
service. -/
theorem selectFunctions_leads {names : List String}
    (hnames : ∀ name ∈ names, Java.IsOrdinaryName name) (s : Session) :
    Leads (selectFunctions (Value.ofNames names)) s (fun _ t => (s.choosing names).Looked
      (s.project.facts.serviceFiles.values.flatMap (s.choosing names).functionsIn) t) := by
  unfold selectFunctions
  rw [keySet_ofNames, texts_ofNames]
  refine Leads.bind (Leads.of_run (orFail_ok_run _ s) ?_)
  refine Leads.bind (Leads.of_run (modifyProject_run _ s) ?_)
  refine Leads.bind (Leads.of_run (orFail_ok_run names _) ?_)
  have hstart := Session.Looked.start (s.choosing names)
  refine Leads.bind ((hstart.tells (Tells.say _)).weaken (fun _ t ht => ?_))
  refine ht.lookAtSelected (fun key hkey => ?_)
  exact hnames _ (mem_display_ofNames.1 ⟨key, hkey, rfl⟩)

/-- Selecting functions whose names stand for themselves succeeds. What is recorded for them in the
files that implement a service is what is found where the names stand as they are; where nothing is
found, the record stays as it was, as do all other records. -/
theorem selected_names_literal {names : List String}
    (hnames : ∀ name ∈ names, Java.IsOrdinaryName name) (s : Session) :
    Leads (selectFunctions (Value.ofNames names)) s (fun _ t =>
      (∃ records log, t = (s.choosing names).recording records log) ∧
      ∀ file name, t.project.facts.recorded? file name =
        if file ∈ s.project.facts.serviceFiles.values ∧ name ∈ names then
          (s.literalFind? file name).or (s.project.facts.recorded? file name)
        else s.project.facts.recorded? file name) := by
  refine (selectFunctions_leads hnames s).weaken (fun _ t ht => ⟨ht.frame, fun file name => ?_⟩)
  have hseen : (file, name) ∈
      s.project.facts.serviceFiles.values.flatMap (s.choosing names).functionsIn ↔
      file ∈ s.project.facts.serviceFiles.values ∧ name ∈ names := by
    simp only [List.mem_flatMap, Session.mem_functionsIn_choosing]
    exact ⟨fun ⟨file', hfile, heq, hname⟩ => ⟨heq ▸ hfile, hname⟩,
      fun ⟨hfile, hname⟩ => ⟨file, hfile, rfl, hname⟩⟩
  have hfind : (s.choosing names).literalFind? file name = s.literalFind? file name := by
    have htypes : fieldTypeIn? (s.choosing names).project.facts = fieldTypeIn? s.project.facts :=
      fieldTypeIn?_congr rfl
    simp only [Session.literalFind?, htypes]
    rfl
  rw [ht.recorded, hfind]
  simp only [hseen]
  rfl

/-- A session in which a file is known to implement a service and to have a field. -/
def implementedService : Session :=
  { Session.ofDisk ((default : Disk).put (SourcePath.ofText "A.java") (.text
      "class A \x7b int m() \x7b bService.f(); \x7d \x7d")) with
    project := { Project.fresh .deep false (SourcePath.ofText ".") with
      facts := {
        serviceFiles := .mk [("AService", SourcePath.ofText "A.java")]
        fieldTypes := .mk [(SourcePath.ofText "A.java", .mk [("bService", "BService")])] } } }

/-- A function is found, and nothing is found for the same name in brackets. -/
theorem selected_function_recorded :
    ∃ t, selectFunctions (Value.ofNames ["m", "<m>"]) implementedService = (.ok (), t) ∧
      t.project.facts.recorded? (SourcePath.ofText "A.java") "m" =
        some (SortedSet.ofList ["BService#f"]) ∧
      t.project.facts.recorded? (SourcePath.ofText "A.java") "<m>" = none := by
  have hnames : ∀ name ∈ ["m", "<m>"], Java.IsOrdinaryName name := by decide
  have hfile : SourcePath.ofText "A.java" ∈
      implementedService.project.facts.serviceFiles.values := List.mem_singleton_self _
  have hfound : implementedService.literalFind? (SourcePath.ofText "A.java") "m" =
        some (SortedSet.ofList ["BService#f"]) ∧
      implementedService.literalFind? (SourcePath.ofText "A.java") "<m>" = none := by
    decide +kernel
  rcases selected_names_literal hnames implementedService with ⟨⟨⟩, t, hrun, -, hrecorded⟩
  refine ⟨t, hrun, ?_, ?_⟩
  · rw [hrecorded, if_pos ⟨hfile, by decide⟩, hfound.1]
    rfl
  · rw [hrecorded, if_pos ⟨hfile, by decide⟩, hfound.2]
    rfl

/-- A name that is no pattern is refused, and a dot finds the function of any name of one
character. -/
theorem special_names_misread :
    (selectFunctions (Value.ofNames ["*"]) implementedService).1.isOk = false ∧
    implementedService.literalFind? (SourcePath.ofText "A.java") "." = none ∧
    (selectFunctions (Value.ofNames ["."]) implementedService).2.project.facts.recorded?
        (SourcePath.ofText "A.java") "." =
      some (SortedSet.ofList ["BService#f"]) := by
  decide +kernel

end JavaDeps
