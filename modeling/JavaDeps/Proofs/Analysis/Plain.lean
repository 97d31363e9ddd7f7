import JavaDeps.Analysis.Plain
import JavaDeps.Opening
import JavaDeps.Proofs.Findings

/-!
# What the plain analysis finds

The plain analysis enters the findings of all readable files, and the calls are resolved with the
classes of all files, whatever was entered in between.

The file defines:
- `Disk.sources`, the files of a project that can be read, with their texts;
- `Graph.foundDeclarations` and `Graph.foundCalls`, the findings of both rounds;
- `Graph.analyzed`, the graph with both recorded, and the run of `analyzePlain` that leads to it;
- `Project.round`, one round through the files, and `Arrives` and `LooksAt`, by which actions record
  it;
- `Project.fresh`, the project that opening a directory gives, and `Session.ofDisk`.
-/

namespace JavaDeps

/-! ## Readable files -/

def Disk.readable (d : Disk) (files : List SourcePath) : List (SourcePath × List Char) :=
  files.filterMap (fun file => (d.text? file).map (fun text => (file, text)))

def Disk.sources (d : Disk) (root : SourcePath) : List (SourcePath × List Char) :=
  d.readable (d.javaFiles root)

/-- Readable files are those that can be read. -/
theorem Disk.mem_readable {d : Disk} {files : List SourcePath} {e : SourcePath × List Char} :
    e ∈ d.readable files ↔ e.1 ∈ files ∧ d.text? e.1 = some e.2 := by
  rcases e with ⟨file, text⟩
  simp only [Disk.readable, List.mem_filterMap, Option.map_eq_some_iff, Prod.mk.injEq]
  constructor
  · rintro ⟨f, hf, t, ht, rfl, rfl⟩
    exact ⟨hf, ht⟩
  · rintro ⟨hf, ht⟩
    exact ⟨file, hf, text, ht, rfl, rfl⟩

theorem Disk.readable_cons (d : Disk) (file : SourcePath) (rest : List SourcePath) :
    d.readable (file :: rest) =
      match d.text? file with
      | some text => (file, text) :: d.readable rest
      | none => d.readable rest := by
  cases h : d.text? file <;> simp [Disk.readable, h]

/-! ## Findings -/

namespace Graph

def foundDeclarations (g : Graph) (d : Disk) : List Finding :=
  (d.sources g.root).flatMap (fun e => declarationFindings e.1 e.2)

def foundCalls (g : Graph) (d : Disk) : List Finding :=
  (d.sources g.root).flatMap (fun e => callFindings g e.1 e.2)

def analyzed (g : Graph) (d : Disk) : Graph :=
  (g.recordAll (g.foundDeclarations d)).recordAll
    ((g.recordAll (g.foundDeclarations d)).foundCalls d)

theorem root_analyzed (g : Graph) (d : Disk) : (g.analyzed d).root = g.root := by
  rw [analyzed, root_recordAll, root_recordAll]

end Graph

/-- The name of a class with the package of the text that declares it. -/
def qualifiedName (text : List Char) (name : String) : String :=
  let package := (Java.packageName? text).getD ""
  if package.isEmpty then name else package ++ "." ++ name

/-- Declarations are those of the readable files, under simple and qualified names. -/
theorem mem_foundDeclarations {g : Graph} {d : Disk} {f : Finding} :
    f ∈ g.foundDeclarations d ↔ ∃ e ∈ d.sources g.root, ∃ name ∈ Java.declaredTypes e.2,
      f = .declares e.1 name (qualifiedName e.2 name) := by
  simp only [Graph.foundDeclarations, declarationFindings, List.mem_flatMap, List.mem_map,
    qualifiedName, eq_comm]

/-- Calls are resolved by the table of classes only. -/
theorem callFindings_congr {g g' : Graph} (h : g.classes = g'.classes) (file : SourcePath)
    (text : List Char) : callFindings g file text = callFindings g' file text := by
  simp [callFindings, usesClass, Graph.otherFile?, h]

theorem Graph.otherFile?_eq_some {g : Graph} {file target : SourcePath} {name : String} :
    g.otherFile? file name = some target ↔ g.classes.get? name = some target ∧ target ≠ file := by
  unfold Graph.otherFile?
  cases h : g.classes.get? name with
  | none => simp
  | some found =>
    by_cases hf : found = file
    · subst hf
      simp only [beq_self_eq_true, if_true, reduceCtorEq, Option.some.injEq, false_iff]
      rintro ⟨rfl, hne⟩
      exact hne rfl
    · simp only [beq_iff_eq, hf, if_false, Option.some.injEq]
      exact ⟨fun e => ⟨e, e ▸ hf⟩, fun e => e.1⟩

/-- The plain analysis finds imports and uses of other files. -/
theorem mem_callFindings {g : Graph} {file : SourcePath} {text : List Char} {f : Finding} :
    f ∈ callFindings g file text → (∃ name, f = .imports file name) ∨
      ∃ name target label, g.otherFile? file name = some target ∧ f = .uses file target label := by
  intro h
  simp only [callFindings, List.mem_append, List.mem_map, List.mem_filterMap, usesClass,
    Option.map_eq_some_iff] at h
  rcases h with ((⟨name, -, rfl⟩ | ⟨c, -, t, ht, rfl⟩) | ⟨c, -, t, ht, rfl⟩) | ⟨c, -, t, ht, rfl⟩
  · exact Or.inl ⟨name, rfl⟩
  · exact Or.inr ⟨_, t, _, ht, rfl⟩
  · exact Or.inr ⟨_, t, _, ht, rfl⟩
  · exact Or.inr ⟨_, t, _, ht, rfl⟩

/-! ## Rounds -/

namespace Project

/-- One round over files: at each of them, what it gives with the project as it is then. -/
def round (findings : Project → SourcePath → List Char → List Finding) (p : Project)
    (sources : List (SourcePath × List Char)) : Project :=
  sources.foldl (fun p e => p.recordAll (findings p e.1 e.2)) p

@[simp] theorem round_nil (findings : Project → SourcePath → List Char → List Finding)
    (p : Project) : p.round findings [] = p := rfl

@[simp] theorem round_cons (findings : Project → SourcePath → List Char → List Finding)
    (p : Project) (e : SourcePath × List Char) (rest : List (SourcePath × List Char)) :
    p.round findings (e :: rest) = (p.recordAll (findings p e.1 e.2)).round findings rest := rfl

/-- What every finding of a round preserves, the round preserves. -/
theorem round_induction {findings : Project → SourcePath → List Char → List Finding}
    {I : Project → Prop} {sources : List (SourcePath × List Char)} {p : Project}
    (hstep : ∀ e ∈ sources, ∀ q, I q → I (q.recordAll (findings q e.1 e.2))) (hp : I p) :
    I (p.round findings sources) := by
  induction sources generalizing p with
  | nil => exact hp
  | cons e rest ih =>
    exact ih (fun e' he' => hstep e' (List.mem_cons_of_mem e he'))
      (hstep e List.mem_cons_self p hp)

/-- A part of the project that no finding of a round changes. -/
theorem round_keeps {γ : Type} (view : Project → γ)
    {findings : Project → SourcePath → List Char → List Finding}
    {sources : List (SourcePath × List Char)} (p : Project)
    (h : ∀ q file text, ∀ f ∈ findings q file text, ∀ r : Project, view (r.record f) = view r) :
    view (p.round findings sources) = view p :=
  round_induction (I := fun q => view q = view p)
    (fun e _ q hq => (recordAll_keeps view q (h q e.1 e.2)).trans hq) rfl

/-- A round whose findings depend only on a part that it keeps records them all. -/
theorem round_eq_recordAll {γ : Type} (view : Project → γ)
    {findings : Project → SourcePath → List Char → List Finding}
    {sources : List (SourcePath × List Char)} {p : Project}
    (hview : ∀ q, view q = view p → findings q = findings p)
    (hkeeps : ∀ file text, ∀ f ∈ findings p file text, ∀ r : Project,
      view (r.record f) = view r) :
    p.round findings sources = p.recordAll (sources.flatMap (fun e => findings p e.1 e.2)) := by
  -- By induction for every project with the same view, as the round goes through several.
  have hgo : ∀ q, view q = view p →
      q.round findings sources = q.recordAll (sources.flatMap (fun e => findings p e.1 e.2)) := by
    induction sources with
    | nil => exact fun q _ => rfl
    | cons e rest ih =>
      intro q hq
      have hnext : view (q.recordAll (findings p e.1 e.2)) = view p :=
        (recordAll_keeps view q (hkeeps e.1 e.2)).trans hq
      rw [round_cons, hview q hq, ih _ hnext, List.flatMap_cons, recordAll_append]
  exact hgo p rfl

/-- A round whose findings do not depend on the project records them all. -/
theorem round_const (findings : SourcePath → List Char → List Finding) (p : Project)
    (sources : List (SourcePath × List Char)) :
    p.round (fun _ => findings) sources =
      p.recordAll (sources.flatMap (fun e => findings e.1 e.2)) :=
  round_eq_recordAll (fun _ => ()) (fun _ _ => rfl) (fun _ _ _ _ _ => rfl)

theorem root_round (findings : Project → SourcePath → List Char → List Finding)
    (p : Project) (sources : List (SourcePath × List Char)) :
    (p.round findings sources).graph.root = p.graph.root :=
  round_keeps (fun q => q.graph.root) p (fun _ _ _ f _ q => Graph.root_record q.graph f)

/-- The second round looks at the graph before every file, but its table of classes stays the same
throughout. -/
theorem round_calls (p : Project) (sources : List (SourcePath × List Char)) :
    p.round (fun p => callFindings p.graph) sources =
      p.recordAll (sources.flatMap (fun e => callFindings p.graph e.1 e.2)) := by
  refine round_eq_recordAll (fun q => q.graph.classes) (fun q hq => ?_) (fun file text f hf q => ?_)
  · funext file text
    exact callFindings_congr hq file text
  · rcases mem_callFindings hf with ⟨_, rfl⟩ | ⟨_, _, _, _, rfl⟩ <;> rfl

/-- The graph after both rounds over the files below the root. -/
theorem graph_rounds (p : Project) (d : Disk) :
    let sources := d.sources p.graph.root
    ((p.round (fun _ => declarationFindings) sources).round
      (fun p => callFindings p.graph) sources).graph = p.graph.analyzed d := by
  intro sources
  rw [round_const, round_calls, graph_recordAll, graph_recordAll, Graph.analyzed, Graph.foundCalls,
    Graph.root_recordAll]
  rfl

end Project

/-! ## Operations that arrive at a project -/

/-- The operation succeeds from the session and leads to the project, with the same files. -/
def Arrives (a : Action Unit) (s : Session) (p : Project) : Prop :=
  Leads a s (fun _ t => t.disk = s.disk ∧ t.project = p)

namespace Arrives

variable {α : Type} {s : Session} {p q : Project} {a : Action Unit}

theorem nothing (s : Session) : Arrives (pure ()) s s.project :=
  Leads.of_run (pure_run () s) ⟨rfl, rfl⟩

/-- The session afterwards has the project that is arrived at. -/
theorem project_eq (h : Arrives a s p) : (a s).2.project = p := by
  rcases h with ⟨_, t, hrun, -, hproject⟩
  rwa [hrun]

theorem say (text : String) (s : Session) : Arrives (JavaDeps.say text) s s.project :=
  Leads.of_run (say_run text s) ⟨rfl, rfl⟩

theorem of_eq {b : Action Unit} (hrun : a s = b s) (hb : Arrives b s p) : Arrives a s p := by
  rcases hb with ⟨x, t, ht, hQ⟩
  exact ⟨x, t, hrun.trans ht, hQ⟩

/-- Two operations one after the other. -/
theorem bind {f : Unit → Action Unit} (ha : Arrives a s p)
    (hf : ∀ t, t.disk = s.disk → t.project = p → Arrives (f ()) t q) :
    Arrives (a >>= f) s q := by
  refine Leads.bind (Leads.weaken ha ?_)
  rintro _ t ⟨hdisk, hproject⟩
  refine Leads.weaken (hf t hdisk hproject) ?_
  rintro _ u ⟨hdisk', hproject'⟩
  exact ⟨hdisk'.trans hdisk, hproject'⟩

theorem say_after (ha : Arrives a s p) (text : String) :
    Arrives (a >>= fun _ => JavaDeps.say text) s p :=
  ha.bind (fun t _ ht => ht ▸ say text t)

theorem say_before {f : Unit → Action Unit} {text : String}
    (hf : ∀ t, t.disk = s.disk → t.project = s.project → Arrives (f ()) t p) :
    Arrives (JavaDeps.say text >>= f) s p :=
  (say text s).bind hf

/-- Reading the project is no step of its own. -/
theorem of_theProject {f : Project → Action Unit} (hf : Arrives (f s.project) s p) :
    Arrives (theProject >>= f) s p :=
  Leads.bind (Leads.of_run (theProject_run s) hf)

section

variable {inside : SourcePath → Prop} {spelled : String → Prop}

/-- Entering findings of the analysis arrives at the project with all of them recorded. -/
theorem enter {findings : List Finding} (h : s.project.Regular inside spelled)
    (hfs : ∀ f ∈ findings, f.Fits inside spelled) :
    Arrives (JavaDeps.enter findings) s (s.project.recordAll findings) := by
  have hrun : JavaDeps.enter findings s =
      (.ok (), { s with project := s.project.recordAll findings }) := by
    simp only [JavaDeps.enter, Project.enterAll_record h hfs]
  exact Leads.of_run hrun ⟨rfl, rfl⟩

/-- A loop that records findings, as long as something holds that they preserve. -/
theorem forM {I : Project → Prop} {xs : List α} {f : α → Action Unit} {found : α → List Finding}
    (hstep : ∀ x ∈ xs, ∀ t : Session, I t.project →
      Arrives (f x) t (t.project.recordAll (found x)) ∧ I (t.project.recordAll (found x)))
    (hs : I s.project) :
    Arrives (xs.forM f) s (s.project.recordAll (xs.flatMap found)) ∧
      I (s.project.recordAll (xs.flatMap found)) := by
  induction xs generalizing s with
  | nil => exact ⟨nothing s, hs⟩
  | cons x rest ih =>
    rcases hstep x List.mem_cons_self s hs with ⟨hfirst, hI⟩
    -- The rest goes on in any session with this project: what was reported does not matter.
    have hrest : ∀ t : Session, t.project = s.project.recordAll (found x) →
        Arrives (rest.forM f) t (s.project.recordAll ((x :: rest).flatMap found)) ∧
          I (s.project.recordAll ((x :: rest).flatMap found)) := by
      intro t ht
      rw [List.flatMap_cons, Project.recordAll_append, ← ht]
      exact ih (fun y hy => hstep y (List.mem_cons_of_mem x hy)) (ht ▸ hI)
    rcases hfirst with ⟨_, t, hrun, hdisk, hproject⟩
    exact ⟨bind ⟨(), t, hrun, hdisk, hproject⟩ (fun u _ hu => (hrest u hu).1), (hrest t hproject).2⟩

end

end Arrives

/-! ## One file in each round -/

section

variable {inside : SourcePath → Prop} {spelled : String → Prop}

/-- The operation looks at a file: it records what the text gives, and nothing for a file that
cannot be read. -/
def LooksAt (inside : SourcePath → Prop) (spelled : String → Prop) (a : Action Unit)
    (file : SourcePath) (findings : Project → SourcePath → List Char → List Finding) : Prop :=
  ∀ s : Session, s.project.Regular inside spelled →
    (s.disk.text? file = none → Arrives a s s.project) ∧
    ∀ text, s.disk.text? file = some text →
      (∀ f ∈ findings s.project file text, f.Fits inside spelled) ∧
      Arrives a s (s.project.recordAll (findings s.project file text))

/-- An operation that reads the file and stops when it cannot looks at the file, if what follows
records the findings. -/
theorem LooksAt.of_text {a : Action Unit} {file : SourcePath}
    {findings : Project → SourcePath → List Char → List Finding} (body : List Char → Action Unit)
    (hrun : ∀ s, a s = match s.disk.text? file with
      | some text => body text s
      | none => (.ok (), s))
    (hfits : ∀ p : Project, p.Regular inside spelled → ∀ text, ∀ f ∈ findings p file text,
      f.Fits inside spelled)
    (hbody : ∀ (s : Session) (text : List Char), s.project.Regular inside spelled →
      Arrives (body text) s (s.project.recordAll (findings s.project file text))) :
    LooksAt inside spelled a file findings := by
  intro s hs
  refine ⟨fun htext => ?_, fun text htext => ⟨hfits s.project hs text, ?_⟩⟩
  · refine Leads.of_run (x := ()) (t := s) ?_ ⟨rfl, rfl⟩
    rw [hrun, htext]
  · rcases hbody s text hs with ⟨_, t, ht, hQ⟩
    refine Leads.of_run (x := ()) (t := t) ?_ hQ
    rw [hrun, htext]
    exact ht

/-- A loop over files whose step looks at each of them is a round. -/
theorem Arrives.round {findings : Project → SourcePath → List Char → List Finding}
    {a : SourcePath → Action Unit} {files : List SourcePath}
    (ha : ∀ file ∈ files, LooksAt inside spelled (a file) file findings) {s : Session}
    (hs : s.project.Regular inside spelled) :
    Arrives (files.forM a) s (s.project.round findings (s.disk.readable files)) ∧
      (s.project.round findings (s.disk.readable files)).Regular inside spelled := by
  induction files generalizing s with
  | nil => exact ⟨nothing s, hs⟩
  | cons file rest ih =>
    have hrest : ∀ file ∈ rest, LooksAt inside spelled (a file) file findings :=
      fun f hf => ha f (List.mem_cons_of_mem file hf)
    rcases ha file List.mem_cons_self s hs with ⟨hnone, hsome⟩
    -- Whatever the file gives, the rest of the loop goes on from there with the same files.
    have hgo : ∀ p : Project, p.Regular inside spelled → Arrives (a file) s p →
        Arrives ((file :: rest).forM a) s (p.round findings (s.disk.readable rest)) ∧
          (p.round findings (s.disk.readable rest)).Regular inside spelled := by
      rintro p hp ⟨_, t, hrun, hdisk, rfl⟩
      refine ⟨bind ⟨(), t, hrun, hdisk, rfl⟩ (fun u hu hproject => ?_), ?_⟩
      · rw [← hu, ← hproject]
        exact (ih hrest (hproject ▸ hp)).1
      · rw [← hdisk]
        exact (ih hrest hp).2
    rw [Disk.readable_cons]
    cases htext : s.disk.text? file with
    | none => exact hgo s.project hs (hnone htext)
    | some text =>
      rcases hsome text htext with ⟨hfits, harrives⟩
      exact hgo _ (hs.recordAll hfits) harrives

def Graph.ClassesIn (inside : SourcePath → Prop) (g : Graph) : Prop :=
  ∀ e ∈ g.classes.entries, inside e.2

theorem Graph.ClassesIn.otherFile?_inside {g : Graph} (h : g.ClassesIn inside)
    {file target : SourcePath} {name : String} (ht : g.otherFile? file name = some target) :
    inside target :=
  h _ (Table.mem_entries_of_get? (Graph.otherFile?_eq_some.1 ht).1)

/-- Calls are findings about files of the analysis. -/
theorem callFindings_fits {g : Graph} (h : g.ClassesIn inside) {file : SourcePath}
    (hfile : inside file) {text : List Char} {f : Finding} (hf : f ∈ callFindings g file text) :
    f.Fits inside spelled := by
  rcases mem_callFindings hf with ⟨name, rfl⟩ | ⟨name, target, label, ht, rfl⟩
  · trivial
  · exact ⟨hfile, h.otherFile?_inside ht⟩

def enterCalls (file : SourcePath) : Action Unit := do
  let g ← theGraph
  enterFile file (callFindings g file)

theorem enterCalls_run (file : SourcePath) (s : Session) :
    enterCalls file s = enterFile file (callFindings s.project.graph file) s := by
  rw [enterCalls, bind_run, theGraph_run]

/-- The two rounds of the plain analysis, over the files of the project. -/
theorem analyzePlain_run (s : Session) :
    analyzePlain s =
      ((s.disk.javaFiles s.project.graph.root).forM
          (fun file => enterFile file (declarationFindings file)) >>= fun _ =>
        (s.disk.javaFiles s.project.graph.root).forM enterCalls) s := by
  rw [analyzePlain, bind_run, projectFiles_run]
  rfl

variable {file : SourcePath}

/-- Where the findings of a file are fitting, entering them is a look at the file. -/
theorem enterFile_looksAt (findings : SourcePath → List Char → List Finding)
    (hfits : ∀ text, ∀ f ∈ findings file text, f.Fits inside spelled) :
    LooksAt inside spelled (enterFile file (findings file)) file (fun _ => findings) := by
  refine LooksAt.of_text (fun text => enter (findings file text)) (fun s => ?_) (fun _ _ => hfits)
    (fun s text hs => Arrives.enter hs (hfits text))
  rw [enterFile, bind_run, sourceText?_run]
  cases s.disk.text? file <;> rfl

/-- The second round at a file is a look at it. -/
theorem enterCalls_looksAt (hfile : inside file) :
    LooksAt inside spelled (enterCalls file) file (fun p => callFindings p.graph) := by
  intro s hs
  have hfits : ∀ text, ∀ f ∈ callFindings s.project.graph file text, f.Fits inside spelled :=
    fun text f => callFindings_fits hs.graph.class_inside hfile
  have hrun := enterCalls_run file s
  rcases enterFile_looksAt (callFindings s.project.graph) hfits s hs with ⟨hnone, hsome⟩
  exact ⟨fun htext => Arrives.of_eq hrun (hnone htext),
    fun text htext => ⟨hfits text, Arrives.of_eq hrun (hsome text htext).2⟩⟩

/-- The plain analysis of a regular project succeeds and records the findings of both rounds. -/
theorem analyzePlain_arrives {s : Session} (hs : s.project.Regular inside spelled)
    (hfiles : ∀ file ∈ s.disk.javaFiles s.project.graph.root, inside file)
    (hdeclares : ∀ file ∈ s.disk.javaFiles s.project.graph.root, ∀ text,
      ∀ f ∈ declarationFindings file text, f.Fits inside spelled) :
    let sources := s.disk.sources s.project.graph.root
    let called := (s.project.round (fun _ => declarationFindings) sources).round
      (fun p => callFindings p.graph) sources
    Arrives analyzePlain s called ∧ called.Regular inside spelled := by
  intro sources called
  have hdeclared := Arrives.round (fun file hfile =>
    enterFile_looksAt declarationFindings (hdeclares file hfile)) hs
  have hcalled : ∀ t : Session, t.disk = s.disk →
      t.project = s.project.round (fun _ => declarationFindings) sources →
      Arrives ((s.disk.javaFiles s.project.graph.root).forM enterCalls) t called ∧
        called.Regular inside spelled := by
    intro t hdisk hproject
    -- The second round reads the same files as the first one, in a session with its results.
    have hround := Arrives.round (fun file hfile =>
      @enterCalls_looksAt inside spelled file (hfiles file hfile)) (hproject ▸ hdeclared.2)
    rw [hdisk, hproject] at hround
    exact hround
  rcases hdeclared.1 with ⟨_, t, hrun, hdisk, hproject⟩
  refine ⟨Arrives.of_eq (analyzePlain_run s) (hdeclared.1.bind ?_), (hcalled t hdisk hproject).2⟩
  exact fun u hu hproject' => (hcalled u hu hproject').1

end

/-! ## Fresh projects -/

def Project.fresh (depth : Depth) (hasStore : Bool) (root : SourcePath) : Project :=
  { depth := depth, hasStore := hasStore, graph := Graph.ofRoot root }

/-- A session over some files, with an empty project, without a table of page functions and without
a drawing tool. -/
def Session.ofDisk (d : Disk) : Session :=
  { project := Project.fresh .plain false (SourcePath.ofText "."), disk := d, store := none,
    tool := .missing, ports := .listens, workingDirectory := "/",
    programDirectory := SourcePath.ofText ".", log := [], opened := [] }

/-- A fresh project is regular: nothing is in it. -/
theorem Project.fresh_regular {inside : SourcePath → Prop} {spelled : String → Prop} (depth : Depth)
    (hasStore : Bool) (root : SourcePath) :
    (Project.fresh depth hasStore root).Regular inside spelled :=
  ⟨Graph.Regular.ofRoot root, fun e he => by cases he⟩

/-- Reaching the table of page functions changes nothing. -/
theorem connect_preserves {γ : Type} (view : Session → γ) : Preserves view Store.connect := by
  refine Preserves.get_bind (fun s => ?_)
  cases s.store with
  | none => exact Preserves.throw _
  | some t => exact Preserves.pure t

theorem tryConnection_preserves_disk (store : Store) :
    Preserves (fun s => s.disk) store.tryConnection := by
  refine Preserves.bind (Preserves.attempt ?_) (fun r => ?_)
  · refine Preserves.bind (Preserves.orFail _) (fun _ => ?_)
    refine Preserves.bind (connect_preserves _) (fun _ => ?_)
    refine Preserves.bind (Preserves.orFail _) (fun _ => ?_)
    exact Preserves.bind (Preserves.orFail _) (fun _ _ => rfl)
  · cases r with
    | ok _ => exact Preserves.pure ()
    | error e =>
      exact Preserves.bind (Preserves.forM (fun _ _ => rfl) _) (fun _ => Preserves.throw e)

def Disk.Lists (d : Disk) (root file : SourcePath) : Prop := file ∈ d.javaFiles root

/-- A listed file lies below the directory, and its name is that of a Java file. -/
theorem Disk.Lists.child {d : Disk} {root file : SourcePath} (h : d.Lists root file) :
    ∃ parts, parts ≠ [] ∧ isJavaName ((parts.getLast?).getD "") = true ∧
      file = root.child parts := by
  unfold Disk.Lists javaFiles at h
  split at h
  · cases h
  · rename_i place _
    split at h
    · cases h
    · rcases List.mem_filterMap.1 h with ⟨e, -, he⟩
      split at he
      · rename_i rest hrest
        split at he
        · rename_i hname
          rw [Bool.and_eq_true, Bool.not_eq_true', List.isEmpty_eq_false_iff] at hname
          refine ⟨rest.parts, hname.2, ?_, (Option.some.inj he).symm⟩
          have hlast : rest.parts.getLast? = e.1.parts.getLast? := by
            unfold SourcePath.relativeTo? at hrest
            split at hrest
            · rw [← Option.some.inj hrest] at hname ⊢
              rw [List.getLast?_drop, if_neg]
              exact fun hle => hname.2 (List.drop_eq_nil_of_le hle)
            · cases hrest
          rw [hlast]
          exact hname.1
        · cases he
      · cases he

theorem SourcePath.relativeTo?_child (root : SourcePath) (parts : List String) :
    (root.child parts).relativeTo? root = some ⟨"", parts⟩ := by
  have hpre : root.parts.isPrefixOf (root.parts ++ parts) = true := by
    rw [List.isPrefixOf_iff_prefix]
    exact List.prefix_append _ _
  simp [relativeTo?, child, hpre]

/-- Opening a directory succeeds, whether or not the table of page functions can be reached. -/
theorem openProject_leads (depth : Depth) (root : String) (s : Session) :
    Leads (openProject depth root) s (fun _ t => t.disk = s.disk ∧
      ∃ hasStore, t.project = Project.fresh depth hasStore (SourcePath.ofText root)) := by
  have hdisk := tryConnection_preserves_disk Store.standard s
  refine Leads.bind (Leads.of_run (attempt_run _ s) ?_)
  cases (Store.standard.tryConnection s).1 with
  | ok _ =>
    refine Leads.bind (Leads.of_run (say_run _ _) ?_)
    refine Leads.bind (Leads.of_run (pure_run true _) ?_)
    exact Leads.of_run (modifyProject_run _ _) ⟨hdisk, true, rfl⟩
  | error e =>
    refine Leads.bind (Leads.of_run (say_run _ _) ?_)
    refine Leads.bind (Leads.of_run (pure_run false _) ?_)
    exact Leads.of_run (modifyProject_run _ _) ⟨hdisk, false, rfl⟩

end JavaDeps
