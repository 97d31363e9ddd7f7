import JavaDeps.Proofs.Analysis.Resolution

/-!
# What the deep analysis knows by name

Classes, interfaces and implementations are kept by name and come from the texts of all files. The
other findings of a file are details: they change only what is kept for this file.
-/

namespace JavaDeps

/-! ## Details of a file -/

/-- The finding changes only what is kept for the file, and gives it no edge to itself. -/
def Finding.DetailOf (file : SourcePath) : Finding → Prop
  | .imports f _ => f = file
  | .uses source target _ => source = file ∧ target ≠ file
  | .usesOnce source target _ => source = file ∧ target ≠ file
  | .types f _ _ => f = file
  | .conditionUses source _ _ => source = file
  | .chainUses source _ _ => source = file
  | .injects f _ => f = file
  | .listsTypes f => f = file
  | .listsConditions f => f = file
  | .listsChains f => f = file
  | .listsInjected f => f = file
  | _ => False

section

variable {g : Graph} {file : SourcePath} {text : List Char} {f : Finding}

/-- A use leads to another file. -/
theorem Graph.otherFile?_ne {target : SourcePath} {name : String}
    (h : g.otherFile? file name = some target) : target ≠ file :=
  (Graph.otherFile?_eq_some.1 h).2

/-- Calls are details of the file that they are found in. -/
theorem callFindings_detailOf (hf : f ∈ callFindings g file text) : f.DetailOf file := by
  rcases mem_callFindings hf with ⟨name, rfl⟩ | ⟨name, target, label, ht, rfl⟩
  · exact rfl
  · exact ⟨rfl, Graph.otherFile?_ne ht⟩

theorem Finding.FoundIn.detailOf (h : f.FoundIn g file) : f.DetailOf file := by
  cases f with
  | usesOnce source target label =>
    rcases h with ⟨rfl, name, htarget⟩
    exact ⟨rfl, Graph.otherFile?_ne htarget⟩
  | imports _ _ => exact h.elim
  | uses _ _ _ => exact h.elim
  | _ => exact h

/-- All that the closer look finds are details of the file. -/
theorem detailFindings_detailOf {p : Project} (hf : f ∈ detailFindings p file text) :
    f.DetailOf file := by
  rcases exists_foundIn hf with ⟨g, hfound⟩
  exact hfound.detailOf

/-- The classes of a file give details, beside what they implement. -/
theorem mem_clauseFindings {facts : Facts} (hf : f ∈ clauseFindings facts file text) :
    (∃ interface className, f = .implements interface className) ∨ f.DetailOf file := by
  simp only [clauseFindings, List.mem_flatMap] at hf
  rcases hf with ⟨c, -, interface, -, hf⟩
  rcases mem_implementationFindings hf with rfl | ⟨interfaceFile, -, hne, rfl⟩
  · exact Or.inl ⟨interface, c.1, rfl⟩
  · exact Or.inr ⟨rfl, hne⟩

/-- A name is never that of its own implementation. -/
theorem append_impl_ne (name : String) : name ++ "Impl" ≠ name := by
  intro h
  have hlength := congrArg (fun s : String => s.toList.length) h
  simp at hlength

/-- A service file gives a detail, beside the pair of names. The file that implements a service has
another name than the one that declares it. -/
theorem serviceFindings_detailOf {files : List SourcePath}
    (hf : f ∈ serviceFindings files file text) :
    (∃ service implementation implFile, f = .servesIn service implementation implFile) ∨
      f.DetailOf file := by
  refine (mem_serviceFindings hf).imp_right ?_
  rintro ⟨implFile, -, hstem, rfl⟩
  refine ⟨rfl, fun heq => ?_⟩
  rw [heq] at hstem
  exact append_impl_ne _ hstem.symm

end

/-! ## Tables kept by name -/

namespace Project

/-- The tables kept by name: classes, interfaces and implementations. -/
def index (p : Project) :
    Table String SourcePath × Table String SourcePath × Table String NameSet :=
  (p.graph.classes, p.facts.interfaces, p.facts.implementations)

theorem classes_record_usesOnce (g : Graph) (source target : SourcePath) (label : String) :
    (g.record (.usesOnce source target label)).classes = g.classes := by
  by_cases hl : label ∈ g.names source target <;> simp [Graph.record, hl, Graph.setLabels]

/-- Details of a file leave the tables kept by name alone. -/
theorem index_record_detail {f : Finding} {file : SourcePath} (h : f.DetailOf file) (p : Project) :
    (p.record f).index = p.index := by
  cases f with
  | usesOnce source target label =>
    simp only [index, record, classes_record_usesOnce, Facts.record]
  | declares _ _ _ => exact h.elim
  | declaresInterface _ _ => exact h.elim
  | implements _ _ => exact h.elim
  | servesIn _ _ _ => exact h.elim
  | _ => rfl

/-- What the classes of a file implement changes neither classes nor interfaces. -/
theorem known_record_clause {f : Finding} {facts : Facts} {file : SourcePath} {text : List Char}
    (hf : f ∈ clauseFindings facts file text) (p : Project) :
    ((p.record f).graph.classes, (p.record f).facts.interfaces) =
      (p.graph.classes, p.facts.interfaces) := by
  rcases mem_clauseFindings hf with ⟨_, _, rfl⟩ | hdetail
  · rfl
  · have hindex := index_record_detail hdetail p
    exact Prod.ext (Prod.mk.inj hindex).1 (Prod.mk.inj (Prod.mk.inj hindex).2).1

/-- Clauses declare no interface. -/
theorem interfaces_record_clause {f : Finding} {facts : Facts} {file : SourcePath}
    {text : List Char} (hf : f ∈ clauseFindings facts file text) (p : Project) :
    (p.record f).facts.interfaces = p.facts.interfaces :=
  (Prod.mk.inj (known_record_clause hf p)).2

/-- Calls and details do not change the index, and services do not either. -/
theorem index_round_calls (p : Project) (sources : List (SourcePath × List Char)) :
    (p.round (fun p => callFindings p.graph) sources).index = p.index :=
  round_keeps index p (fun _ _ _ _ hf => index_record_detail (callFindings_detailOf hf))

/-- The phase of services leaves the tables kept by name alone. -/
theorem index_round_services (p : Project) (files : List SourcePath)
    (sources : List (SourcePath × List Char)) :
    (p.round (fun _ => serviceFindings files) sources).index = p.index := by
  refine round_keeps index p (fun _ _ _ f hf => ?_)
  rcases serviceFindings_detailOf hf with ⟨_, _, _, rfl⟩ | hdetail
  · exact fun _ => rfl
  · exact index_record_detail hdetail

/-- The closer look leaves the tables kept by name alone. -/
theorem index_round_details (p : Project) (sources : List (SourcePath × List Char)) :
    (p.round detailFindings sources).index = p.index :=
  round_keeps index p (fun _ _ _ _ hf => index_record_detail (detailFindings_detailOf hf))

/-- Interfaces are not classes: declaring them changes one table only. -/
theorem index_round_interfaces (p : Project) (sources : List (SourcePath × List Char)) :
    (p.round (fun _ => interfaceFindings) sources).index =
      (p.graph.classes, (p.round (fun _ => interfaceFindings) sources).facts.interfaces,
        p.facts.implementations) := by
  have hkeeps : ((p.round (fun _ => interfaceFindings) sources).graph.classes,
      (p.round (fun _ => interfaceFindings) sources).facts.implementations) =
        (p.graph.classes, p.facts.implementations) := by
    refine round_keeps (fun p => (p.graph.classes, p.facts.implementations)) p
      (fun _ _ _ f hf q => ?_)
    rcases List.mem_map.1 hf with ⟨name, -, rfl⟩
    rfl
  rcases Prod.mk.inj hkeeps with ⟨hclasses, himplementations⟩
  rw [index, hclasses, himplementations]

/-- Of the tables kept by name the phase of clauses changes the implementations only. -/
theorem index_round_clauses (p : Project) (sources : List (SourcePath × List Char)) :
    (p.round (fun p => clauseFindings p.facts) sources).index =
      (p.graph.classes, p.facts.interfaces,
        (p.round (fun p => clauseFindings p.facts) sources).facts.implementations) := by
  have hkeeps : ((p.round (fun p => clauseFindings p.facts) sources).graph.classes,
      (p.round (fun p => clauseFindings p.facts) sources).facts.interfaces) =
        (p.graph.classes, p.facts.interfaces) :=
    round_keeps (fun p => (p.graph.classes, p.facts.interfaces)) p
      (fun _ _ _ _ hf => known_record_clause hf)
  rcases Prod.mk.inj hkeeps with ⟨hclasses, hinterfaces⟩
  rw [index, hclasses, hinterfaces]

end Project

/-! ## What names stand for -/

/-- The classes of a text that list an interface among what they implement, in order. -/
def Java.implementing (text : List Char) (interface : String) : List String :=
  (implementsClauses text).flatMap (fun c =>
    c.2.flatMap (fun name => if name = interface then [c.1] else []))

/-- The classes that findings list as implementations of an interface, in order. -/
def Finding.implementer? (interface : String) : Finding → Option String
  | .implements name className => if name = interface then some className else none
  | _ => none

/-- An interface is listed with the last file that declares it. -/
theorem Facts.get?_interfaces_declares (f : Facts) (file : SourcePath) (names : List String)
    (key : String) :
    ((names.map (Finding.declaresInterface file)).foldl Facts.record f).interfaces.get? key =
      if names.contains key = true then some file else f.interfaces.get? key := by
  induction names generalizing f with
  | nil => rfl
  | cons name rest ih =>
    rw [List.map_cons, List.foldl_cons, ih]
    simp only [Facts.record, Table.get?_set, beq_iff_eq, List.contains_iff_mem, List.mem_cons]
    by_cases hrest : key ∈ rest
    · simp [hrest]
    · simp [hrest, eq_comm]

namespace Project

theorem facts_recordAll (p : Project) (findings : List Finding) :
    (p.recordAll findings).facts = findings.foldl Facts.record p.facts := by
  induction findings generalizing p with
  | nil => rfl
  | cons f rest ih => exact ih (p.record f)

end Project

/-- The last file of a listing that declares an interface is the one it is listed with. -/
theorem get?_interfaces_round (p : Project) (sources : List (SourcePath × List Char))
    (key : String) :
    (p.round (fun _ => interfaceFindings) sources).facts.interfaces.get? key =
      (((sources.filter (fun e => (Java.declaredInterfaces e.2).contains key)).map
        Prod.fst).getLast?).or (p.facts.interfaces.get? key) := by
  induction sources generalizing p with
  | nil => simp
  | cons e rest ih =>
    rw [Project.round_cons, ih, Project.facts_recordAll, interfaceFindings,
      Facts.get?_interfaces_declares]
    by_cases he : (Java.declaredInterfaces e.2).contains key = true
    · simp only [if_pos he, List.filter_cons, List.map_cons, List.getLast?_cons]
      cases ((rest.filter (fun e => (Java.declaredInterfaces e.2).contains key)).map
        Prod.fst).getLast? <;> rfl
    · simp only [if_neg he, List.filter_cons]

/-- A set with names added, which is there as soon as there is a name to add. -/
def insertedInto (s? : Option NameSet) (names : List String) : Option NameSet :=
  if names = [] then s? else some ((s?.getD SortedSet.empty).insertAll names)

/-- The implementations of an interface are those that the findings list. -/
theorem get?_implementations_recordAll (p : Project) (findings : List Finding) (key : String) :
    (p.recordAll findings).facts.implementations.get? key =
      insertedInto (p.facts.implementations.get? key)
        (findings.filterMap (Finding.implementer? key)) := by
  induction findings generalizing p with
  | nil => rfl
  | cons f rest ih =>
    rw [Project.recordAll_cons, ih]
    cases f with
    | «implements» interface className =>
      simp only [Project.record, Facts.record, Table.get?_alter, Table.getD, beq_iff_eq]
      by_cases h : interface = key
      · subst h
        -- The set is there from now on, whether or not the rest adds to it.
        by_cases hrest : rest.filterMap (Finding.implementer? interface) = [] <;>
          simp [Finding.implementer?, insertedInto, hrest, SortedSet.insertAll]
      · simp [Finding.implementer?, h]
    | _ => rfl

theorem filterMap_implementationFindings {f : Facts} {key : String} (file : SourcePath)
    (className interface : String) :
    (implementationFindings f file className interface).filterMap (Finding.implementer? key) =
      if (f.interfaces.get? key).isSome ∧ interface = key then [className] else [] := by
  unfold implementationFindings
  cases hi : f.interfaces.get? interface with
  | none =>
    by_cases h : interface = key
    · subst h
      simp [hi]
    · simp [h]
  | some interfaceFile =>
    by_cases h : interface = key
    · subst h
      by_cases hfile : file = interfaceFile <;> simp [Finding.implementer?, hi, hfile]
    · by_cases hfile : file = interfaceFile <;> simp [Finding.implementer?, h, hfile]

/-- The classes of a text that implement a known interface. -/
theorem filterMap_clauseFindings {f : Facts} {key : String} (file : SourcePath)
    (text : List Char) :
    (clauseFindings f file text).filterMap (Finding.implementer? key) =
      if (f.interfaces.get? key).isSome then Java.implementing text key else [] := by
  simp only [clauseFindings, List.filterMap_flatMap, filterMap_implementationFindings]
  by_cases h : (f.interfaces.get? key).isSome = true
  · simp only [h, true_and, if_true, Java.implementing]
  · simp [h]

/-- A known interface is implemented by the classes that list it, in whatever file. -/
theorem get?_implementations_round (p : Project) (sources : List (SourcePath × List Char))
    (key : String) :
    (p.round (fun p => clauseFindings p.facts) sources).facts.implementations.get? key =
      insertedInto (p.facts.implementations.get? key)
        (if (p.facts.interfaces.get? key).isSome then
          sources.flatMap (fun e => Java.implementing e.2 key) else []) := by
  have hround : p.round (fun p => clauseFindings p.facts) sources =
      p.recordAll (sources.flatMap (fun e => clauseFindings p.facts e.1 e.2)) := by
    refine Project.round_eq_recordAll (fun p => p.facts.interfaces) (fun q hq => ?_)
      (fun _ _ _ hf => Project.interfaces_record_clause hf)
    funext file text
    exact clauseFindings_congr (fun name => by rw [hq]) file text
  rw [hround, get?_implementations_recordAll, List.filterMap_flatMap]
  simp only [filterMap_clauseFindings]
  by_cases h : (p.facts.interfaces.get? key).isSome = true
  · simp only [h, if_true]
  · have hnone : sources.flatMap (fun _ => ([] : List String)) = [] :=
      List.flatMap_eq_nil_iff.2 (fun _ _ => rfl)
    simp only [h, if_false, Bool.false_eq_true, hnone]

/-! ## After all rounds -/

section

variable (p : Project) (files : List SourcePath) (sources : List (SourcePath × List Char))

/-- The tables kept by name are complete before the closer look. -/
theorem Project.index_surveyed :
    let declared := p.round (fun _ => declarationFindings) sources
    let called := declared.round (fun p => callFindings p.graph) sources
    let known := called.round (fun _ => interfaceFindings) sources
    (p.surveyed files sources).index =
      (declared.graph.classes, known.facts.interfaces,
        (known.round (fun p => clauseFindings p.facts) sources).facts.implementations) := by
  intro declared called known
  -- Each table is written by one round; the later ones leave it alone.
  have hclasses : known.graph.classes = declared.graph.classes :=
    (Prod.mk.inj (Project.index_round_interfaces called sources)).1.trans
      (Prod.mk.inj (Project.index_round_calls declared sources)).1
  show (Project.round _ _ sources).index = _
  rw [Project.index_round_services, Project.index_round_clauses, hclasses]

theorem Project.index_examined :
    (p.examined files sources).index = (p.surveyed files sources).index :=
  Project.index_round_details _ sources

end

/-! ## The last phase -/

/-- The links by what an interface and a class stand for. -/
theorem mem_crossFindings_iff {g : Graph} {f : Facts} {finding : Finding} :
    finding ∈ crossFindings g f ↔ ∃ interface className file classFile,
      f.interfaces.get? interface = some file ∧
      className ∈ (f.implementations.getD interface SortedSet.empty).toList ∧
      g.classes.get? className = some classFile ∧
      (finding = .usesOnce file classFile ("implemented-by: " ++ className) ∨
        finding = .usesOnce classFile file ("implements: " ++ interface)) := by
  rw [mem_crossFindings]
  constructor
  · rintro ⟨⟨interface, classes⟩, he, className, hmem, file, classFile, hi, hclass, hf⟩
    refine ⟨interface, className, file, classFile, hi, ?_, hclass, hf⟩
    rw [Table.getD, Table.get?_of_mem he]
    exact hmem
  · rintro ⟨interface, className, file, classFile, hi, hmem, hclass, hf⟩
    rw [Table.getD] at hmem
    cases hget : f.implementations.get? interface with
    | none =>
      rw [hget] at hmem
      cases hmem
    | some classes =>
      rw [hget] at hmem
      exact ⟨(interface, classes), Table.mem_entries_of_get? hget, className, hmem,
        file, classFile, hi, hclass, hf⟩

/-- The last phase only uses, and each label once. -/
theorem usesOnce_of_mem_crossFindings {g : Graph} {f : Facts} {finding : Finding}
    (hf : finding ∈ crossFindings g f) :
    ∃ source target label, finding = .usesOnce source target label := by
  rcases mem_crossFindings.1 hf with ⟨_, -, _, -, _, _, -, -, rfl | rfl⟩
  · exact ⟨_, _, _, rfl⟩
  · exact ⟨_, _, _, rfl⟩

theorem uses_not_mem_crossFindings {g : Graph} {f : Facts} {source target : SourcePath}
    {label : String} : .uses source target label ∉ crossFindings g f := by
  intro hmem
  rcases usesOnce_of_mem_crossFindings hmem with ⟨_, _, _, heq⟩
  cases heq

/-- The last phase leaves the tables kept by name alone. -/
theorem Project.index_deepened (p : Project) (files : List SourcePath)
    (sources : List (SourcePath × List Char)) :
    (p.deepened files sources).index = (p.examined files sources).index := by
  refine Project.recordAll_keeps Project.index _ (fun f hf q => ?_)
  rcases usesOnce_of_mem_crossFindings hf with ⟨_, _, _, rfl⟩
  simp only [Project.index, Project.record, Project.classes_record_usesOnce, Facts.record]

/-- What the last phase adds to an edge, by what an interface and a class stand for. -/
theorem mem_names_deepened {p : Project} (files : List SourcePath)
    (sources : List (SourcePath × List Char)) {source target : SourcePath} {label : String}
    (hbefore : label ∉ (p.examined files sources).graph.names source target) :
    label ∈ (p.deepened files sources).graph.names source target ↔
      ∃ interface className file classFile,
        (p.deepened files sources).facts.interfaces.get? interface = some file ∧
        className ∈ ((p.deepened files sources).facts.implementations.getD interface
          SortedSet.empty).toList ∧
        (p.deepened files sources).graph.classes.get? className = some classFile ∧
        (source = file ∧ target = classFile ∧ label = "implemented-by: " ++ className ∨
          source = classFile ∧ target = file ∧ label = "implements: " ++ interface) := by
  have hindex := Project.index_deepened p files sources
  simp only [Project.index, Prod.mk.injEq] at hindex
  rcases hindex with ⟨hclasses, hinterfaces, himplementations⟩
  rw [hclasses, hinterfaces, himplementations, Project.deepened, Project.graph_recordAll,
    Graph.mem_names_recordAll, or_iff_right hbefore, or_iff_right uses_not_mem_crossFindings,
    mem_crossFindings_iff]
  simp only [Finding.usesOnce.injEq]

/-! ## Analyses of fresh projects -/

section

variable (depth : Depth) (hasStore : Bool) (root : SourcePath) (files : List SourcePath)
  (sources : List (SourcePath × List Char)) (key : String)

theorem index_fresh_deepened :
    let fresh := Project.fresh depth hasStore root
    let declared := fresh.round (fun _ => declarationFindings) sources
    let called := declared.round (fun p => callFindings p.graph) sources
    let known := called.round (fun _ => interfaceFindings) sources
    (fresh.deepened files sources).index =
      (declared.graph.classes, known.facts.interfaces,
        (known.round (fun p => clauseFindings p.facts) sources).facts.implementations) := by
  intro fresh declared called known
  rw [Project.index_deepened, Project.index_examined,
    Project.index_surveyed]

/-- A name stands for a class of the last file that declares it. -/
theorem get?_classes_fresh :
    ((Project.fresh depth hasStore root).deepened files sources).graph.classes.get? key =
      ((sources.filter (fun e => Java.declares e.2 key)).map Prod.fst).getLast? := by
  have hindex := index_fresh_deepened depth hasStore root files sources
  rw [(Prod.mk.inj hindex).1, Project.round_const, Project.graph_recordAll,
    get?_classes_declarations]
  exact Option.or_none

/-- Declared classes and calls are no facts beside the graph. -/
theorem Project.facts_round_plain (p : Project) :
    ((p.round (fun _ => declarationFindings) sources).round
      (fun p => callFindings p.graph) sources).facts = p.facts := by
  have hdeclared : (p.round (fun _ => declarationFindings) sources).facts = p.facts := by
    refine Project.round_keeps Project.facts p (fun _ _ _ f hf r => ?_)
    rcases List.mem_map.1 hf with ⟨name, -, rfl⟩
    rfl
  rw [← hdeclared]
  refine Project.round_keeps Project.facts _ (fun _ _ _ f hf r => ?_)
  rcases mem_callFindings hf with ⟨_, rfl⟩ | ⟨_, _, _, _, rfl⟩ <;> rfl

/-- A name stands for an interface of the last file that declares it. -/
theorem get?_interfaces_fresh :
    ((Project.fresh depth hasStore root).deepened files sources).facts.interfaces.get? key =
      ((sources.filter (fun e => (Java.declaredInterfaces e.2).contains key)).map
        Prod.fst).getLast? := by
  have hindex := index_fresh_deepened depth hasStore root files sources
  rw [(Prod.mk.inj (Prod.mk.inj hindex).2).1, get?_interfaces_round, Project.facts_round_plain]
  exact Option.or_none

/-- An interface that some file declares is implemented by the classes that list it. -/
theorem get?_implementations_fresh :
    ((Project.fresh depth hasStore root).deepened files sources).facts.implementations.get? key =
      insertedInto none
        (if (((sources.filter (fun e => (Java.declaredInterfaces e.2).contains key)).map
            Prod.fst).getLast?).isSome then
          sources.flatMap (fun e => Java.implementing e.2 key) else []) := by
  have hindex := index_fresh_deepened depth hasStore root files sources
  rcases Prod.mk.inj (Prod.mk.inj hindex).2 with ⟨hinterfaces, himplementations⟩
  have hknown := get?_interfaces_fresh depth hasStore root files sources key
  rw [hinterfaces] at hknown
  have hbefore := (Prod.mk.inj (Prod.mk.inj (Project.index_round_interfaces
    ((((Project.fresh depth hasStore root).round (fun _ => declarationFindings) sources).round
      (fun p => callFindings p.graph) sources)) sources)).2).2
  rw [Project.facts_round_plain] at hbefore
  rw [himplementations, get?_implementations_round, hknown, hbefore]
  rfl

end

end JavaDeps
