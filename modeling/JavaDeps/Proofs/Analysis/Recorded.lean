import JavaDeps.Analysis.Deep
import JavaDeps.Proofs.Analysis.Plain

/-!
# The deep analysis as recorded findings

The deep analysis goes through the files round after round. In each round it records, file by file,
findings that depend on the project as it is then. This file says so exactly, for the graph and for
the facts beside it.
-/

namespace JavaDeps

/-! ## Findings of the phases -/

def interfaceFindings (file : SourcePath) (text : List Char) : List Finding :=
  (Java.declaredInterfaces text).map (Finding.declaresInterface file)

/-- That a class of a file implements an interface, when the interface is known. -/
def implementationFindings (f : Facts) (file : SourcePath) (className interface : String) :
    List Finding :=
  match f.interfaces.get? interface with
  | some interfaceFile =>
    .implements interface className ::
      if file != interfaceFile then [.uses file interfaceFile ("implements " ++ interface)] else []
  | none => []

def clauseFindings (f : Facts) (file : SourcePath) (text : List Char) : List Finding :=
  (Java.implementsClauses text).flatMap (fun c =>
    c.2.flatMap (implementationFindings f file c.1))

/-- The service that a file declares or implements by its name. -/
def serviceFindings (files : List SourcePath) (file : SourcePath) (text : List Char) :
    List Finding :=
  let holds (word : String) : Bool := Text.occursIn word.toList text
  let name := file.stem
  if Text.ends name "Service" && holds "interface" then
    match files.find? (fun f => f.stem == name ++ "Impl") with
    | some implFile =>
      [.servesIn name (name ++ "Impl") implFile, .uses file implFile "implemented_by"]
    | none => []
  else if Text.ends name "ServiceImpl" && holds "implements" then
    let service := Text.replace name "Impl" ""
    if holds "interface" && files.any (fun f => f.stem == service) then
      [.servesIn service name file]
    else []
  else []

def fieldRound (p : Project) (file : SourcePath) (text : List Char) : List Finding :=
  fieldFindings p.graph file text ++ [.listsTypes file]

def conditionRound (p : Project) (file : SourcePath) (text : List Char) : List Finding :=
  conditionFindings p.graph p.facts file text ++ [.listsConditions file]

def chainRound (p : Project) (file : SourcePath) (text : List Char) : List Finding :=
  chainFindings p.graph p.facts file text ++ [.listsChains file]

def injectionRound (p : Project) (file : SourcePath) (text : List Char) : List Finding :=
  injectionFindings p.graph p.facts file text ++ [.listsInjected file]

/-- What the closer look at a file finds. Each part sees the project with the parts before it. -/
def detailFindings (p : Project) (file : SourcePath) (text : List Char) : List Finding :=
  let typed := p.recordAll (fieldRound p file text)
  let tested := typed.recordAll (conditionRound typed file text)
  let chained := tested.recordAll (chainRound tested file text)
  fieldRound p file text ++ (conditionRound typed file text
    ++ (chainRound tested file text ++ injectionRound chained file text))

namespace Project

def surveyed (p : Project) (files : List SourcePath) (sources : List (SourcePath × List Char)) :
    Project :=
  let declared := p.round (fun _ => declarationFindings) sources
  let called := declared.round (fun p => callFindings p.graph) sources
  let known := called.round (fun _ => interfaceFindings) sources
  let claimed := known.round (fun p => clauseFindings p.facts) sources
  claimed.round (fun _ => serviceFindings files) sources

def examined (p : Project) (files : List SourcePath) (sources : List (SourcePath × List Char)) :
    Project :=
  (p.surveyed files sources).round detailFindings sources

def deepened (p : Project) (files : List SourcePath) (sources : List (SourcePath × List Char)) :
    Project :=
  (p.examined files sources).recordAll
    (crossFindings (p.examined files sources).graph (p.examined files sources).facts)

end Project

/-! ## What is found -/

section

variable {g : Graph} {p : Project} {file : SourcePath} {text : List Char} {f : Finding}

/-- A class implements an interface, and its file has an edge to that of the interface. -/
theorem mem_implementationFindings {facts : Facts} {className interface : String}
    (hf : f ∈ implementationFindings facts file className interface) :
    f = .implements interface className ∨ ∃ interfaceFile,
      facts.interfaces.get? interface = some interfaceFile ∧ interfaceFile ≠ file ∧
      f = .uses file interfaceFile ("implements " ++ interface) := by
  unfold implementationFindings at hf
  split at hf
  · rename_i interfaceFile hi
    rcases List.mem_cons.1 hf with rfl | hf
    · exact Or.inl rfl
    · split at hf
      · rename_i hne
        exact Or.inr ⟨interfaceFile, hi, (bne_iff_ne.1 hne).symm, List.mem_singleton.1 hf⟩
      · cases hf
  · cases hf

/-- A service is implemented in a file, and the file of its interface has an edge to this one. -/
theorem mem_serviceFindings {files : List SourcePath} (hf : f ∈ serviceFindings files file text) :
    (∃ service implementation implFile, f = .servesIn service implementation implFile) ∨
      ∃ implFile ∈ files, implFile.stem = file.stem ++ "Impl" ∧
        f = .uses file implFile "implemented_by" := by
  simp only [serviceFindings] at hf
  split at hf
  · split at hf
    · rename_i implFile himpl
      simp only [List.mem_cons, List.not_mem_nil, or_false] at hf
      rcases hf with rfl | rfl
      · exact Or.inl ⟨_, _, _, rfl⟩
      · have hstem := List.find?_some himpl
        exact Or.inr ⟨implFile, List.mem_of_find?_eq_some himpl, beq_iff_eq.1 hstem, rfl⟩
    · cases hf
  · split at hf
    · split at hf
      · exact Or.inl ⟨_, _, _, List.mem_singleton.1 hf⟩
      · cases hf
    · cases hf

/-- A link runs from the file of an interface to the file of a class that implements it, or back. -/
theorem mem_crossFindings {facts : Facts} :
    f ∈ crossFindings g facts ↔ ∃ e ∈ facts.implementations.entries, ∃ className ∈ e.2.toList,
      ∃ file classFile, facts.interfaces.get? e.1 = some file ∧
        g.classes.get? className = some classFile ∧
        (f = .usesOnce file classFile ("implemented-by: " ++ className) ∨
          f = .usesOnce classFile file ("implements: " ++ e.1)) := by
  simp only [crossFindings, List.mem_flatMap]
  refine exists_congr (fun e => and_congr_right (fun _ => ?_))
  cases hi : facts.interfaces.get? e.1 with
  | none => simp
  | some file =>
    simp only [List.mem_flatMap, Option.some.injEq]
    refine exists_congr (fun className => and_congr_right (fun _ => ?_))
    unfold linkFindings
    cases g.classes.get? className <;> simp

/-- A detail of a file, found with the classes of a graph: it changes only what is kept for the
file, and an edge leads to another file in which a class was found. -/
def Finding.FoundIn (g : Graph) (file : SourcePath) : Finding → Prop
  | .usesOnce source target _ => source = file ∧ ∃ name, g.otherFile? file name = some target
  | .types f _ _ => f = file
  | .conditionUses source _ _ => source = file
  | .chainUses source _ _ => source = file
  | .injects f _ => f = file
  | .listsTypes f => f = file
  | .listsConditions f => f = file
  | .listsChains f => f = file
  | .listsInjected f => f = file
  | _ => False

theorem usesClassOnce_foundIn {name label : String} (hf : f ∈ usesClassOnce g file name label) :
    f.FoundIn g file := by
  unfold usesClassOnce at hf
  split at hf
  · rename_i target ht
    rw [List.mem_singleton.1 hf]
    exact ⟨rfl, name, ht⟩
  · cases hf

/-- A use of a class that is recorded in two places: among the facts and as an edge. -/
theorem conditionUse_foundIn {type? : Option String} {label : String}
    (hf : f ∈ conditionUse g file type? label ∨ f ∈ chainUse g file type? label) :
    f.FoundIn g file := by
  unfold conditionUse chainUse at hf
  cases type? with
  | none => simp at hf
  | some type =>
    cases ht : g.otherFile? file type with
    | none => simp [ht] at hf
    | some target =>
      simp only [ht, List.mem_cons, List.not_mem_nil, or_false] at hf
      rcases hf with (rfl | rfl) | (rfl | rfl)
      · exact rfl
      · exact ⟨rfl, type, ht⟩
      · exact rfl
      · exact ⟨rfl, type, ht⟩

/-- Fields and nested types are found in their file. -/
theorem fieldRound_foundIn (hf : f ∈ fieldRound p file text) : f.FoundIn p.graph file := by
  simp only [fieldRound, fieldFindings, List.mem_append, List.mem_flatMap, List.mem_cons,
    List.not_mem_nil, or_false] at hf
  rcases hf with (⟨d, -, rfl | hf⟩ | ⟨n, -, hf⟩) | rfl
  · exact rfl
  · exact usesClassOnce_foundIn hf
  · exact usesClassOnce_foundIn hf
  · exact rfl

theorem conditionRound_foundIn (hf : f ∈ conditionRound p file text) : f.FoundIn p.graph file := by
  simp only [conditionRound, conditionFindings, List.mem_append, List.mem_flatMap, List.mem_cons,
    List.not_mem_nil, or_false] at hf
  rcases hf with ((⟨_, -, hf⟩ | ⟨_, -, hf⟩) | ⟨_, -, hf⟩) | rfl
  · exact conditionUse_foundIn (Or.inl hf)
  · exact conditionUse_foundIn (Or.inl hf)
  · exact conditionUse_foundIn (Or.inl hf)
  · exact rfl

theorem chainRound_foundIn (hf : f ∈ chainRound p file text) : f.FoundIn p.graph file := by
  simp only [chainRound, chainFindings, List.mem_append, List.mem_flatMap, List.mem_cons,
    List.not_mem_nil, or_false] at hf
  rcases hf with (⟨_, -, hf⟩ | ⟨_, -, hf⟩) | rfl
  · exact conditionUse_foundIn (Or.inr hf)
  · exact conditionUse_foundIn (Or.inr hf)
  · exact rfl

/-- Injected fields, and those that implement their types, are found in their file. -/
theorem injectionRound_foundIn (hf : f ∈ injectionRound p file text) : f.FoundIn p.graph file := by
  simp only [injectionRound, injectionFindings, List.mem_append, List.mem_flatMap, List.mem_cons,
    List.not_mem_nil, or_false] at hf
  rcases hf with ⟨d, -, (rfl | hf) | ⟨c, -, hf⟩⟩ | rfl
  · exact rfl
  · exact usesClassOnce_foundIn hf
  · exact usesClassOnce_foundIn hf
  · exact rfl

/-- Each part of the closer look finds its details with the classes that are known then. -/
theorem exists_foundIn (hf : f ∈ detailFindings p file text) : ∃ g, f.FoundIn g file := by
  simp only [detailFindings, List.mem_append] at hf
  rcases hf with hf | hf | hf | hf
  · exact ⟨_, fieldRound_foundIn hf⟩
  · exact ⟨_, conditionRound_foundIn hf⟩
  · exact ⟨_, chainRound_foundIn hf⟩
  · exact ⟨_, injectionRound_foundIn hf⟩

/-! ## Files of the analysis -/

variable {inside : SourcePath → Prop} {spelled : String → Prop}

/-- What is found in a file is about files of the analysis. -/
theorem Finding.FoundIn.fits (h : f.FoundIn g file) (hclasses : g.ClassesIn inside)
    (hfile : inside file) : f.Fits inside spelled := by
  cases f with
  | usesOnce source target label =>
    rcases h with ⟨rfl, name, htarget⟩
    exact ⟨hfile, hclasses.otherFile?_inside htarget⟩
  | declares _ _ _ => exact h.elim
  | uses _ _ _ => exact h.elim
  | declaresInterface _ _ => exact h.elim
  | _ => trivial

theorem interfaceFindings_fits (hfile : inside file) (hf : f ∈ interfaceFindings file text) :
    f.Fits inside spelled := by
  rcases List.mem_map.1 hf with ⟨name, -, rfl⟩
  exact hfile

/-- An implementation lies in its file, and the interface in one of the analysis. -/
theorem implementationFindings_fits (hinterfaces : ∀ e ∈ p.facts.interfaces.entries, inside e.2)
    (hfile : inside file) {className interface : String}
    (hf : f ∈ implementationFindings p.facts file className interface) : f.Fits inside spelled := by
  rcases mem_implementationFindings hf with rfl | ⟨interfaceFile, hi, -, rfl⟩
  · trivial
  · exact ⟨hfile, hinterfaces _ (Table.mem_entries_of_get? hi)⟩

theorem serviceFindings_fits {files : List SourcePath} (hfile : inside file)
    (hfiles : ∀ f ∈ files, inside f) (hf : f ∈ serviceFindings files file text) :
    f.Fits inside spelled := by
  rcases mem_serviceFindings hf with ⟨_, _, _, rfl⟩ | ⟨implFile, hmem, -, rfl⟩
  · trivial
  · exact ⟨hfile, hfiles implFile hmem⟩

/-- Findings in a file keep a project regular. -/
theorem Project.Regular.recordFound (hp : p.Regular inside spelled) (hfile : inside file)
    {findings : List Finding} (hfound : ∀ f ∈ findings, f.FoundIn p.graph file) :
    (p.recordAll findings).Regular inside spelled :=
  hp.recordAll (fun f hf => (hfound f hf).fits hp.graph.class_inside hfile)

/-- The closer look only finds what is about files of the analysis. -/
theorem detailFindings_fits (hp : p.Regular inside spelled) (hfile : inside file)
    (hf : f ∈ detailFindings p file text) : f.Fits inside spelled := by
  have hfits : ∀ {q : Project}, q.Regular inside spelled → f.FoundIn q.graph file →
      f.Fits inside spelled := fun hq hfound => hfound.fits hq.graph.class_inside hfile
  have htyped := hp.recordFound hfile (fun f => @fieldRound_foundIn p file text f)
  have htested := htyped.recordFound hfile (fun f => @conditionRound_foundIn _ file text f)
  have hchained := htested.recordFound hfile (fun f => @chainRound_foundIn _ file text f)
  simp only [detailFindings, List.mem_append] at hf
  rcases hf with hf | hf | hf | hf
  · exact hfits hp (fieldRound_foundIn hf)
  · exact hfits htyped (conditionRound_foundIn hf)
  · exact hfits htested (chainRound_foundIn hf)
  · exact hfits hchained (injectionRound_foundIn hf)

/-- The links of the last phase run between files of the analysis. -/
theorem crossFindings_fits (hclasses : p.graph.ClassesIn inside)
    (hinterfaces : ∀ e ∈ p.facts.interfaces.entries, inside e.2)
    (hf : f ∈ crossFindings p.graph p.facts) : f.Fits inside spelled := by
  rcases mem_crossFindings.1 hf with ⟨e, -, className, -, file, classFile, hi, hclass, hf⟩
  have hfile : inside file := hinterfaces _ (Table.mem_entries_of_get? hi)
  have hclassFile : inside classFile := hclasses _ (Table.mem_entries_of_get? hclass)
  rcases hf with rfl | rfl
  · exact ⟨hfile, hclassFile⟩
  · exact ⟨hclassFile, hfile⟩

end

/-! ## One file in each phase -/

section

variable {inside : SourcePath → Prop} {spelled : String → Prop} {file : SourcePath}

theorem enterInterfaces_looksAt (hfile : inside file) :
    LooksAt inside spelled (enterInterfaces file) file (fun _ => interfaceFindings) := by
  let body : String → Action Unit := fun name => do
    enter [.declaresInterface file name]
    say ("📋 Found interface: " ++ name)
  refine LooksAt.of_text (fun text => (Java.declaredInterfaces text).forM body) (fun s => ?_)
    (fun _ _ _ _ => interfaceFindings_fits hfile) (fun s text hs => ?_)
  · rw [enterInterfaces, bind_run, sourceText?_run]
    cases s.disk.text? file <;> rfl
  · rw [interfaceFindings, List.map_eq_flatMap]
    refine (Arrives.forM (I := fun p => p.Regular inside spelled) (fun name _ t ht => ?_) hs).1
    have hfits : ∀ f ∈ [Finding.declaresInterface file name], f.Fits inside spelled := by
      intro f hf
      rw [List.mem_singleton.1 hf]
      exact hfile
    exact ⟨(Arrives.enter ht hfits).say_after _, ht.recordAll hfits⟩

/-- Implementations leave the interfaces alone. -/
theorem interfaces_implementationFindings (f : Facts) (className interface : String) (p : Project) :
    (p.recordAll (implementationFindings f file className interface)).facts.interfaces =
      p.facts.interfaces := by
  refine Project.recordAll_keeps (fun p => p.facts.interfaces) p (fun f hf q => ?_)
  rcases mem_implementationFindings hf with rfl | ⟨_, _, _, rfl⟩ <;> rfl

theorem enterImplementation_arrives {s : Session} (hs : s.project.Regular inside spelled)
    (hfile : inside file) (className interface : String) :
    Arrives (enterImplementation file className interface) s
      (s.project.recordAll
        (implementationFindings s.project.facts file className interface)) := by
  have hfits := fun f => @implementationFindings_fits _ file f _ spelled hs.interface_inside hfile
      className interface
  refine Arrives.of_theProject ?_
  unfold implementationFindings at hfits ⊢
  cases hi : s.project.facts.interfaces.get? interface with
  | none => exact Arrives.nothing s
  | some interfaceFile =>
    simp only [hi] at hfits ⊢
    have hfirst : ∀ f ∈ [Finding.implements interface className], f.Fits inside spelled := by
      intro f hf
      rw [List.mem_singleton.1 hf]
      trivial
    -- The class is entered and reported first; the edge is entered into what there is then.
    refine (Arrives.enter hs hfirst).bind (fun t _ ht => ?_)
    refine Arrives.say_before (fun u _ hu => ?_)
    have hproject : u.project = s.project.record (.implements interface className) := hu.trans ht
    have hu' : u.project.Regular inside spelled := hproject ▸ hs.recordAll hfirst
    rw [Project.recordAll_cons, ← hproject]
    split
    · rename_i hne
      rw [if_pos hne] at hfits
      exact Arrives.enter hu' (fun f hf => hfits f (List.mem_cons_of_mem _ hf))
    · exact Arrives.nothing u

/-- Findings about implementations are resolved by the table of interfaces only. -/
theorem implementationFindings_congr {f f' : Facts} {interface : String}
    (h : f.interfaces.get? interface = f'.interfaces.get? interface) (file : SourcePath)
    (className : String) :
    implementationFindings f file className interface =
      implementationFindings f' file className interface := by
  simp only [implementationFindings, h]

/-- Clauses are read with the interfaces that are known. -/
theorem clauseFindings_congr {f f' : Facts}
    (h : ∀ name, f.interfaces.get? name = f'.interfaces.get? name) (file : SourcePath)
    (text : List Char) : clauseFindings f file text = clauseFindings f' file text := by
  have hall : implementationFindings f file = implementationFindings f' file := by
    funext className interface
    exact implementationFindings_congr (h interface) file className
  simp only [clauseFindings, hall]

theorem enterImplementations_looksAt (hfile : inside file) :
    LooksAt inside spelled (enterImplementations file) file (fun p => clauseFindings p.facts) := by
  refine LooksAt.of_text (fun text => (Java.implementsClauses text).forM (fun c =>
      c.2.forM (fun interface => enterImplementation file c.1 interface))) (fun s => ?_)
    (fun p hp text f hf => ?_) (fun s text hs => ?_)
  · rw [enterImplementations, bind_run, sourceText?_run]
    cases s.disk.text? file <;> rfl
  · simp only [clauseFindings, List.mem_flatMap] at hf
    rcases hf with ⟨c, -, interface, -, hf⟩
    exact implementationFindings_fits hp.interface_inside hfile hf
  · -- The interfaces stay as they are throughout both loops.
    let I : Project → Prop := fun p =>
      p.Regular inside spelled ∧ p.facts.interfaces = s.project.facts.interfaces
    have hone : ∀ (className interface : String) (t : Session), I t.project →
        Arrives (enterImplementation file className interface) t (t.project.recordAll
            (implementationFindings s.project.facts file className interface)) ∧
          I (t.project.recordAll
            (implementationFindings s.project.facts file className interface)) := by
      rintro className interface t ⟨hreg, hinterfaces⟩
      have hsame : implementationFindings s.project.facts file className interface =
          implementationFindings t.project.facts file className interface :=
        implementationFindings_congr (by rw [hinterfaces]) file className
      rw [hsame]
      refine ⟨enterImplementation_arrives hreg hfile className interface, ?_, ?_⟩
      · exact hreg.recordAll (fun f => implementationFindings_fits hreg.interface_inside hfile)
      · exact (interfaces_implementationFindings _ className interface _).trans hinterfaces
    exact (Arrives.forM (I := I)
      (fun c _ t ht => Arrives.forM (fun interface _ u hu => hone c.1 interface u hu) ht)
      ⟨hs, rfl⟩).1

/-- A service is entered and reported. -/
theorem enterService_arrives {s : Session} (hs : s.project.Regular inside spelled)
    (service implementation : String) (implFile : SourcePath) :
    Arrives (enterService service implementation implFile) s
      (s.project.record (.servesIn service implementation implFile)) := by
  refine (Arrives.enter hs (fun f hf => ?_)).say_after _
  rw [List.mem_singleton.1 hf]
  trivial

theorem pairService_looksAt {files : List SourcePath} (hfile : inside file)
    (hfiles : ∀ f ∈ files, inside f) :
    LooksAt inside spelled (pairService files file) file (fun _ => serviceFindings files) := by
  have hfits : ∀ text, ∀ f ∈ serviceFindings files file text, f.Fits inside spelled :=
    fun text f hf => serviceFindings_fits hfile hfiles hf
  intro s hs
  refine ⟨fun htext => ?_, fun text htext => ⟨hfits text, ?_⟩⟩
  · refine Leads.bind (Leads.of_run (sourceText?_run file s) ?_)
    rw [htext]
    exact Arrives.nothing s
  · refine Leads.bind (Leads.of_run (sourceText?_run file s) ?_)
    rw [htext]
    specialize hfits text
    simp only [serviceFindings] at hfits ⊢
    split
    · -- The file declares a service: its implementation is looked for among all files.
      rename_i hservice
      simp only [if_pos hservice] at hfits
      cases himpl : files.find? (fun f => f.stem == file.stem ++ "Impl") with
      | none => exact Arrives.nothing s
      | some implFile =>
        simp only [himpl] at hfits
        refine (enterService_arrives hs _ _ _).bind (fun t _ ht => ?_)
        rw [Project.recordAll_cons, ← ht]
        refine Arrives.enter ?_ (fun f hf => hfits f (List.mem_cons_of_mem _ hf))
        rw [ht]
        exact hs.record (hfits _ List.mem_cons_self)
    · -- The file implements a service, or has nothing to do with one.
      split
      · split
        · exact enterService_arrives hs _ _ _
        · exact Arrives.nothing s
      · exact Arrives.nothing s

/-- A part of the closer look: it enters details of the project as it is, reports on the result and
goes on. -/
theorem Arrives.part {s : Session} {q : Project} (hs : s.project.Regular inside spelled)
    (hfile : inside file) (findings : Project → List Finding)
    (hfound : ∀ f ∈ findings s.project, f.FoundIn s.project.graph file) {report : Project → String}
    {next : Unit → Action Unit}
    (hnext : ∀ t : Session, t.project = s.project.recordAll (findings s.project) →
      t.project.Regular inside spelled → Arrives (next ()) t q) :
    Arrives (theProject >>= fun p => JavaDeps.enter (findings p) >>= fun _ =>
      theProject >>= fun p => JavaDeps.say (report p) >>= next) s q := by
  have hfits : ∀ f ∈ findings s.project, f.Fits inside spelled :=
    fun f hf => (hfound f hf).fits hs.graph.class_inside hfile
  refine Arrives.of_theProject ((Arrives.enter hs hfits).bind (fun t _ ht => ?_))
  refine Arrives.of_theProject (Arrives.say_before (fun u _ hu => ?_))
  have hproject := hu.trans ht
  exact hnext u hproject (hproject ▸ hs.recordFound hfile hfound)

/-- What the closer look records, part after part. -/
theorem recordAll_detailFindings (p : Project) (text : List Char) :
    let typed := p.recordAll (fieldRound p file text)
    let tested := typed.recordAll (conditionRound typed file text)
    let chained := tested.recordAll (chainRound tested file text)
    p.recordAll (detailFindings p file text) =
      chained.recordAll (injectionRound chained file text) := by
  simp only [detailFindings, Project.recordAll_append]

/-- The closer look at a file, in all its parts. -/
theorem enterDetails_looksAt (hfile : inside file) :
    LooksAt inside spelled (enterDetails file) file detailFindings := by
  intro s hs
  refine ⟨fun htext => ?_, fun text htext => ⟨fun f => detailFindings_fits hs hfile, ?_⟩⟩
  · refine Leads.bind (Leads.of_run (sourceText?_run file s) ?_)
    rw [htext]
    exact Arrives.nothing s
  · refine Leads.bind (Leads.of_run (sourceText?_run file s) ?_)
    rw [htext, recordAll_detailFindings]
    -- Each part starts from the project to which the part before it has led.
    refine Arrives.part hs hfile (fun p => fieldRound p file text) (fun f => fieldRound_foundIn)
      (fun typed htyped hs => ?_)
    rw [← htyped]
    refine Arrives.part hs hfile (fun p => conditionRound p file text)
      (fun f => conditionRound_foundIn) (fun tested htested hs => ?_)
    rw [← htested]
    refine Arrives.part hs hfile (fun p => chainRound p file text) (fun f => chainRound_foundIn)
      (fun chained hchained hs => ?_)
    rw [← hchained]
    have hfits : ∀ f ∈ injectionRound chained.project file text, f.Fits inside spelled :=
      fun f hf => (injectionRound_foundIn hf).fits hs.graph.class_inside hfile
    refine Arrives.of_theProject ((Arrives.enter hs hfits).bind (fun t _ ht => ?_))
    rw [← ht]
    exact Arrives.of_theProject (Arrives.say _ t)

/-! ## The whole analysis -/

/-- The last phase records all its links. -/
theorem crossReference_arrives {s : Session} (hs : s.project.Regular inside spelled) :
    Arrives crossReference s
      (s.project.recordAll (crossFindings s.project.graph s.project.facts)) := by
  refine Arrives.say_before (fun t _ ht => ?_)
  rw [← ht] at hs ⊢
  refine Arrives.of_theProject ?_
  have hcross : ∀ f ∈ crossFindings t.project.graph t.project.facts, f.Fits inside spelled :=
    fun f => crossFindings_fits hs.graph.class_inside hs.interface_inside
  refine (Arrives.enter hs hcross).bind (fun u _ hu => ?_)
  rw [← hu]
  refine Arrives.of_theProject ?_
  refine Arrives.say_before (fun v _ hv => ?_)
  refine Arrives.say_before (fun w _ hw => ?_)
  rw [← hv, ← hw]
  exact Arrives.say _ w

/-- A report, and what goes on from there. -/
theorem Leads.say_bind {text : String} {s : Session} {d : Disk} {p : Project} (hdisk : s.disk = d)
    (hproject : s.project = p) {rest : Unit → Action Unit} {Q : Unit → Session → Prop}
    (hrest : ∀ t : Session, t.disk = d → t.project = p → Leads (rest ()) t Q) :
    Leads (JavaDeps.say text >>= rest) s Q :=
  Leads.bind (Leads.of_run (say_run text s) (hrest _ hdisk hproject))

/-- A round, and what goes on from there. -/
theorem Leads.round_bind {findings : Project → SourcePath → List Char → List Finding}
    {a : SourcePath → Action Unit} {files : List SourcePath}
    (ha : ∀ file ∈ files, LooksAt inside spelled (a file) file findings) {s : Session} {d : Disk}
    {p : Project} (hdisk : s.disk = d) (hproject : s.project = p)
    (hp : p.Regular inside spelled) {rest : Unit → Action Unit} {Q : Unit → Session → Prop}
    (hrest : ∀ t : Session, t.disk = d → t.project = p.round findings (d.readable files) →
      (p.round findings (d.readable files)).Regular inside spelled → Leads (rest ()) t Q) :
    Leads (files.forM a >>= rest) s Q := by
  have hround := Arrives.round ha (hproject ▸ hp)
  rw [hdisk, hproject] at hround
  refine Leads.bind (hround.1.weaken ?_)
  rintro _ t ⟨ht, hproject'⟩
  exact hrest t (ht.trans hdisk) hproject' hround.2

/-- The deep analysis of a regular project leads to the project with all rounds recorded. -/
theorem analyzeDeep_leads {s : Session} (hs : s.project.Regular inside spelled)
    (hfiles : ∀ file ∈ s.disk.javaFiles s.project.graph.root, inside file)
    (hdeclares : ∀ file ∈ s.disk.javaFiles s.project.graph.root, ∀ text,
      ∀ f ∈ declarationFindings file text, f.Fits inside spelled) :
    Leads analyzeDeep s (fun _ t => t.disk = s.disk ∧ t.project.Regular inside spelled ∧
      t.project = s.project.deepened (s.disk.javaFiles s.project.graph.root)
        (s.disk.sources s.project.graph.root)) := by
  refine Leads.bind (Leads.of_run (say_run _ s) (Leads.bind ?_))
  have hreg := (analyzePlain_arrives hs hfiles hdeclares).2
  refine (analyzePlain_arrives (s := s.report _) hs hfiles hdeclares).1.weaken ?_
  rintro _ t ⟨hdisk, hproject⟩
  -- The rounds leave the root alone, so that the files are listed a second time as they were.
  have hroot : t.project.graph.root = s.project.graph.root := by
    rw [hproject, Project.root_round, Project.root_round]
    rfl
  have hlist : projectFiles t = (.ok (s.disk.javaFiles s.project.graph.root), t) := by
    rw [projectFiles_run, hdisk, hroot]
    rfl
  refine Leads.bind (Leads.of_run hlist ?_)
  refine Leads.say_bind hdisk hproject (fun t hdisk hproject => ?_)
  -- Interfaces, implementations, services and the closer look are a round each.
  refine Leads.round_bind (fun file hfile => enterInterfaces_looksAt (hfiles file hfile))
    hdisk hproject hreg (fun t hdisk hproject hreg => ?_)
  refine Leads.round_bind (fun file hfile => enterImplementations_looksAt (hfiles file hfile))
    hdisk hproject hreg (fun t hdisk hproject hreg => ?_)
  refine Leads.say_bind hdisk hproject (fun t hdisk hproject => ?_)
  refine Leads.round_bind (fun file hfile => pairService_looksAt (hfiles file hfile) hfiles)
    hdisk hproject hreg (fun t hdisk hproject hreg => ?_)
  refine Leads.say_bind hdisk hproject (fun t hdisk hproject => ?_)
  refine Leads.round_bind (fun file hfile => enterDetails_looksAt (hfiles file hfile))
    hdisk hproject hreg (fun t hdisk hproject hreg => ?_)
  refine Leads.say_bind hdisk hproject (fun t hdisk hproject => ?_)
  rw [← hproject] at hreg
  have hcross : ∀ f ∈ crossFindings t.project.graph t.project.facts, f.Fits inside spelled :=
    fun f => crossFindings_fits hreg.graph.class_inside hreg.interface_inside
  refine (crossReference_arrives hreg).weaken ?_
  rintro _ u ⟨hdisk', hlast⟩
  refine ⟨hdisk'.trans hdisk, ?_, ?_⟩
  · rw [hlast]
    exact hreg.recordAll hcross
  · rw [hlast, hproject]
    rfl

end

end JavaDeps
