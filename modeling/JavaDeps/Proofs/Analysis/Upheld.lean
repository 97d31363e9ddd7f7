import JavaDeps.Proofs.Analysis.Deep
import JavaDeps.Proofs.Selection.Filter

/-!
# What an analysis keeps true

A project can be analysed again after selections and edits. Such an analysis may fail, since an edit
may have left a value in its way. What it enters until then are findings about files of the
directory: the files that it reads, and the files of classes and interfaces that were found before.
-/

namespace JavaDeps

/-! ## Operations that keep something true -/

/-- Whether it succeeds or fails, the operation keeps something true of the project. -/
def Upholds {α : Type} (I : Project → Prop) (a : Action α) : Prop :=
  ∀ s, I s.project → I (a s).2.project

namespace Upholds

variable {α β : Type} {I : Project → Prop}

theorem pure (x : α) : Upholds I (pure x : Action α) := fun _ hs => hs

theorem of_preserves {a : Action α} (h : Preserves (fun s => s.project) a) : Upholds I a := by
  intro s hs
  have hproject : (a s).2.project = s.project := h s
  rw [hproject]
  exact hs

theorem say (text : String) : Upholds I (say text) := of_preserves (fun _ => rfl)

/-- What both operations keep, both of them together keep. -/
theorem bind {a : Action α} {f : α → Action β} (ha : Upholds I a) (hf : ∀ x, Upholds I (f x)) :
    Upholds I (a >>= f) := by
  intro s hs
  have hfirst := ha s hs
  rw [bind_run]
  -- When the first part fails, the project is as it left it.
  rcases h : a s with ⟨e | x, t⟩
  · rw [h] at hfirst
    exact hfirst
  · rw [h] at hfirst
    exact hf x t hfirst

theorem say_then {a : Action α} (text : String) (ha : Upholds I a) :
    Upholds I (JavaDeps.say text >>= fun _ => a) :=
  bind (say text) (fun _ => ha)

/-- A loop keeps what each of its rounds keeps. -/
theorem forM {f : α → Action Unit} {xs : List α} (hf : ∀ x ∈ xs, Upholds I (f x)) :
    Upholds I (xs.forM f) := by
  induction xs with
  | nil => exact pure ()
  | cons x rest ih =>
    exact bind (hf x List.mem_cons_self)
      (fun _ => ih (fun y hy => hf y (List.mem_cons_of_mem _ hy)))

/-- What is looked up in the project has what is true of it. -/
theorem theProject_bind {f : Project → Action β} (hf : ∀ p, I p → Upholds I (f p)) :
    Upholds I (theProject >>= f) :=
  fun s hs => hf s.project hs s hs

theorem theGraph_bind {f : Graph → Action β} (hf : ∀ p, I p → Upholds I (f p.graph)) :
    Upholds I (theGraph >>= f) :=
  fun s hs => hf s.project hs s hs

theorem sourceText?_bind {file : SourcePath} {f : Option (List Char) → Action β}
    (hf : ∀ text?, Upholds I (f text?)) : Upholds I (sourceText? file >>= f) :=
  fun s hs => hf (s.disk.text? file) s hs

end Upholds

/-! ## Findings about files of the directory -/

def SourcePath.Under (root file : SourcePath) : Prop := (file.relativeTo? root).isSome = true

/-- A listed file lies in the directory. -/
theorem Disk.Lists.under {d : Disk} {root file : SourcePath} (h : d.Lists root file) :
    root.Under file :=
  h.below (g := Graph.ofRoot root) rfl

abbrev Finding.Local (root : SourcePath) (f : Finding) : Prop := f.Fits root.Under (fun _ => True)

/-- What holds of a project stays true when a finding about files of the directory is entered, and
the files that the analysis looks up in the project lie in the directory. -/
structure Absorbs (root : SourcePath) (I : Project → Prop) : Prop where
  root_eq : ∀ {p}, I p → p.graph.root = root
  classes : ∀ {p}, I p → p.graph.ClassesIn root.Under
  interfaces : ∀ {p}, I p → ∀ e ∈ p.facts.interfaces.entries, root.Under e.2
  enter : ∀ {p f}, I p → f.Local root → I (p.enter f).2

section

variable {root : SourcePath} {I : Project → Prop} (hI : Absorbs root I) {file : SourcePath}
include hI

/-- Even if entering fails, what was entered keeps what is absorbed. -/
theorem Absorbs.enterAll {findings : List Finding} (hfindings : ∀ f ∈ findings, f.Local root)
    {p : Project} (hp : I p) : I (p.enterAll findings).2 := by
  induction findings generalizing p with
  | nil => exact hp
  | cons f rest ih =>
    have hfirst : I (p.enter f).2 := hI.enter hp (hfindings f List.mem_cons_self)
    -- A finding that cannot be entered ends the list; those before it stay.
    unfold Project.enterAll
    rcases h : p.enter f with ⟨e | x, q⟩
    · rw [h] at hfirst
      exact hfirst
    · rw [h] at hfirst
      exact ih (fun f' hf' => hfindings f' (List.mem_cons_of_mem _ hf')) hfirst

theorem enter_upholds {findings : List Finding} (hfindings : ∀ f ∈ findings, f.Local root) :
    Upholds I (enter findings) :=
  fun _ hs => hI.enterAll hfindings hs

theorem enter_one_upholds {f : Finding} (hf : f.Local root) : Upholds I (enter [f]) :=
  enter_upholds hI (fun _ hmem => List.mem_singleton.1 hmem ▸ hf)

/-- The files of the project lie in its directory. -/
theorem projectFiles_bind_upholds {α : Type} {k : List SourcePath → Action α}
    (hk : ∀ files, (∀ file ∈ files, root.Under file) → Upholds I (k files)) :
    Upholds I (projectFiles >>= k) := by
  intro s hs
  have hfiles : ∀ file ∈ s.disk.javaFiles s.project.graph.root, root.Under file := by
    intro file hfile
    rw [hI.root_eq hs] at hfile
    exact Disk.Lists.under hfile
  exact hk _ hfiles s hs

/-! ## The plain analysis -/

theorem enterFile_upholds {findings : List Char → List Finding}
    (hfindings : ∀ text, ∀ f ∈ findings text, f.Local root) :
    Upholds I (enterFile file findings) := by
  refine Upholds.sourceText?_bind (fun text? => ?_)
  cases text? with
  | none => exact Upholds.pure ()
  | some text => exact enter_upholds hI (hfindings text)

/-- The plain analysis keeps whatever absorbs the findings of a directory. -/
theorem analyzePlain_upholds : Upholds I analyzePlain := by
  refine projectFiles_bind_upholds hI (fun files hfiles => ?_)
  refine Upholds.bind (Upholds.forM (fun file hfile => ?_))
    (fun _ => Upholds.forM (fun file hfile => ?_))
  · refine enterFile_upholds hI (fun text f hf => ?_)
    rcases List.mem_map.1 hf with ⟨name, -, rfl⟩
    exact ⟨hfiles file hfile, trivial, trivial⟩
  · -- Calls are resolved in the graph as it is when the turn of their file comes.
    refine Upholds.theGraph_bind (fun p hp => ?_)
    exact enterFile_upholds hI (fun text f => callFindings_fits (hI.classes hp) (hfiles file hfile))

/-! ## The phases of the deep analysis -/

theorem enterInterfaces_upholds (hfile : root.Under file) : Upholds I (enterInterfaces file) := by
  refine Upholds.sourceText?_bind (fun text? => ?_)
  cases text? with
  | none => exact Upholds.pure ()
  | some text =>
    refine Upholds.forM (fun name _ => ?_)
    exact Upholds.bind (enter_one_upholds hI hfile) (fun _ => Upholds.say _)

theorem enterImplementation_upholds (hfile : root.Under file) (className interface : String) :
    Upholds I (enterImplementation file className interface) := by
  refine Upholds.theProject_bind (fun p hp => ?_)
  cases hfound : p.facts.interfaces.get? interface with
  | none => exact Upholds.pure ()
  | some interfaceFile =>
    -- The interface may have been found by an earlier analysis.
    have hinterface : root.Under interfaceFile :=
      hI.interfaces hp _ (Table.mem_entries_of_get? hfound)
    refine Upholds.bind (enter_one_upholds hI trivial) (fun _ => ?_)
    refine Upholds.say_then _ ?_
    split
    · exact enter_one_upholds hI ⟨hfile, hinterface⟩
    · exact Upholds.pure ()

theorem enterImplementations_upholds (hfile : root.Under file) :
    Upholds I (enterImplementations file) := by
  refine Upholds.sourceText?_bind (fun text? => ?_)
  cases text? with
  | none => exact Upholds.pure ()
  | some text =>
    refine Upholds.forM (fun c _ => Upholds.forM (fun interface _ => ?_))
    exact enterImplementation_upholds hI hfile c.1 interface

theorem enterService_upholds (service implementation : String) :
    Upholds I (enterService service implementation file) :=
  Upholds.bind (enter_one_upholds hI trivial) (fun _ => Upholds.say _)

/-- Services are paired among the files of the directory. -/
theorem pairService_upholds {files : List SourcePath} (hfiles : ∀ f ∈ files, root.Under f)
    (hfile : root.Under file) : Upholds I (pairService files file) := by
  refine Upholds.sourceText?_bind (fun text? => ?_)
  cases text? with
  | none => exact Upholds.pure ()
  | some text =>
    dsimp only
    split
    · split
      · rename_i implFile hfound
        have himpl : root.Under implFile := hfiles _ (List.mem_of_find?_eq_some hfound)
        refine Upholds.bind (enterService_upholds hI _ _) (fun _ => ?_)
        exact enter_one_upholds hI ⟨hfile, himpl⟩
      · exact Upholds.pure ()
    · split
      · split
        · exact enterService_upholds hI _ _
        · exact Upholds.pure ()
      · exact Upholds.pure ()

/-- A part of the closer look at a file enters details found in the project as it is. -/
theorem details_upholds (hfile : root.Under file) (findings : Project → List Finding)
    (hfindings : ∀ p, ∀ f ∈ findings p, f.FoundIn p.graph file) {k : Project → Action Unit}
    (hk : ∀ p, Upholds I (k p)) :
    Upholds I (theProject >>= fun p => enter (findings p) >>= fun _ => theProject >>= k) := by
  refine Upholds.theProject_bind (fun p hp => ?_)
  refine Upholds.bind (enter_upholds hI (fun f hf => ?_)) (fun _ => ?_)
  · exact (hfindings p f hf).fits (hI.classes hp) hfile
  · exact Upholds.theProject_bind (fun q _ => hk q)

theorem enterDetails_upholds (hfile : root.Under file) : Upholds I (enterDetails file) := by
  refine Upholds.sourceText?_bind (fun text? => ?_)
  cases text? with
  | none => exact Upholds.pure ()
  | some text =>
    refine details_upholds hI hfile (fun p => fieldRound p file text)
      (fun p f => fieldRound_foundIn)
      (fun _ => Upholds.say_then _ ?_)
    refine details_upholds hI hfile (fun p => conditionRound p file text)
      (fun p f => conditionRound_foundIn) (fun _ => Upholds.say_then _ ?_)
    refine details_upholds hI hfile (fun p => chainRound p file text)
      (fun p f => chainRound_foundIn)
      (fun _ => Upholds.say_then _ ?_)
    exact details_upholds hI hfile (fun p => injectionRound p file text)
      (fun p f => injectionRound_foundIn) (fun _ => Upholds.say _)

/-- The links of the last phase are absorbed. -/
theorem crossReference_upholds : Upholds I crossReference := by
  refine Upholds.say_then _ (Upholds.theProject_bind (fun p hp => ?_))
  refine Upholds.bind (enter_upholds hI (fun f hf => ?_)) (fun _ => ?_)
  · exact crossFindings_fits (hI.classes hp) (hI.interfaces hp) hf
  · refine Upholds.theProject_bind (fun q _ => ?_)
    exact Upholds.say_then _ (Upholds.say_then _ (Upholds.say _))

/-- The deep analysis keeps whatever absorbs the findings of a directory. -/
theorem analyzeDeep_upholds : Upholds I analyzeDeep := by
  refine Upholds.say_then _ ?_
  refine Upholds.bind (analyzePlain_upholds hI) (fun _ => ?_)
  refine projectFiles_bind_upholds hI (fun files hfiles => Upholds.say_then _ ?_)
  have hinterfaces : Upholds I (files.forM enterInterfaces) :=
    Upholds.forM (fun file hfile => enterInterfaces_upholds hI (hfiles file hfile))
  have himplementations : Upholds I (files.forM enterImplementations) :=
    Upholds.forM (fun file hfile => enterImplementations_upholds hI (hfiles file hfile))
  have hservices : Upholds I (files.forM (pairService files)) :=
    Upholds.forM (fun file hfile => pairService_upholds hI hfiles (hfiles file hfile))
  have hdetails : Upholds I (files.forM enterDetails) :=
    Upholds.forM (fun file hfile => enterDetails_upholds hI (hfiles file hfile))
  refine Upholds.bind hinterfaces (fun _ => Upholds.bind himplementations (fun _ => ?_))
  refine Upholds.say_then _ (Upholds.bind hservices (fun _ => ?_))
  refine Upholds.say_then _ (Upholds.bind hdetails (fun _ => ?_))
  exact Upholds.say_then _ (crossReference_upholds hI)

/-- Whether it succeeds or fails, an analysis keeps true what its findings keep true. -/
theorem analyze_upholds : Upholds I analyze := by
  refine Upholds.theProject_bind (fun p _ => ?_)
  cases p.depth with
  | plain => exact analyzePlain_upholds hI
  | deep => exact analyzeDeep_upholds hI
  | paged => exact analyzeDeep_upholds hI

end

end JavaDeps
