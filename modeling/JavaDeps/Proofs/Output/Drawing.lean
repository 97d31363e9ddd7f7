import JavaDeps.Output.Generate
import JavaDeps.Proofs.Disk
import JavaDeps.Proofs.Session

/-!
# What a drawing leaves on the disk

Drawing writes the drawing and the description, has the drawing tool make the image and the map, and
puts both into a page. Whether the page could be written is not asked for afterwards: the answer
tells of the image and the map only.
-/

namespace JavaDeps

/-! ## Operations that write files -/

theorem writeFile_run {s : Session} {path : String} {c : Content} {d : Disk}
    (h : s.disk.write path c = .ok d) : writeFile path c s = (.ok (), { s with disk := d }) := by
  rw [writeFile, get_bind_run, h]
  rfl

theorem writeFile_fails {s : Session} {path : String} {c : Content} {e : Fault}
    (h : s.disk.write path c = .error e) : writeFile path c s = (.error e, s) := by
  rw [writeFile, get_bind_run, h]
  rfl

/-- A file that is written is on the disk as the disk takes it. -/
theorem writeFile_ensures (path : String) (c : Content) (s : Session) :
    Ensures (writeFile path c) s
      (fun _ t => ∃ d, s.disk.write path c = .ok d ∧ t = { s with disk := d }) := by
  cases hwrite : s.disk.write path c with
  | ok d => exact Ensures.of_run (writeFile_run hwrite) ⟨d, rfl, rfl⟩
  | error e =>
    intro x t hrun
    cases (writeFile_fails hwrite).symm.trans hrun

/-- The operation succeeds with this answer, and changes nothing but the files, which are these
afterwards, and the report. -/
def Leaves {α : Type} (a : Action α) (s : Session) (x : α) (d : Disk) : Prop :=
  ∃ log, a s = (.ok x, { s with disk := d, log := log })

namespace Leaves

variable {α β : Type} {s : Session} {a : Action α} {f : α → Action β} {x : α} {y : β} {d e : Disk}

theorem of_tells (h : Tells a s x) : Leaves a s x s.disk := h

theorem bind (h : Leaves a s x d) (hf : ∀ log, Leaves (f x) { s with disk := d, log := log } y e) :
    Leaves (a >>= f) s y e := by
  rcases h with ⟨log, hrun⟩
  rcases hf log with ⟨log', hrun'⟩
  refine ⟨log', ?_⟩
  rw [bind_run, hrun]
  exact hrun'

/-- After an operation that only reports. -/
theorem after (h : Tells a s x) (hf : ∀ log, Leaves (f x) { s with log := log } y e) :
    Leaves (a >>= f) s y e :=
  bind (of_tells h) hf

theorem writeFile {path : String} {c : Content} (h : s.disk.write path c = .ok d) :
    Leaves (JavaDeps.writeFile path c) s () d :=
  ⟨s.log, writeFile_run h⟩

/-- After an attempt, whose outcome decides how it goes on. -/
theorem attempt_bind {g : Except Fault α → Action β} {r : Except Fault α}
    (hrun : a s = (r, { s with disk := d })) (hg : Leaves (g r) { s with disk := d } y e) :
    Leaves (attempt a >>= g) s y e := by
  rcases hg with ⟨log, hg⟩
  refine ⟨log, ?_⟩
  rw [bind_run, attempt_run, hrun]
  exact hg

/-- A failure that is reported leaves the files alone. -/
theorem sayFalse (text : String) : Leaves (do say text; return false) s false s.disk :=
  of_tells (Tells.bind (Tells.say text) (fun _ => Tells.pure false))

end Leaves

/-! ## The drawing tool -/

def Tool.does (tool : Tool) (task : ToolTask) (d : Disk) : Bool :=
  match (tool.run task d).1 with
  | .ok (code, _) => code == 0
  | .error _ => false

/-- The tool answers, and leaves the disk as it says. -/
theorem runTool_run (task : ToolTask) (s : Session) :
    runTool task s = ((s.tool.run task s.disk).1, { s with disk := (s.tool.run task s.disk).2 }) :=
  rfl

/-- The image is drawn if the tool does it, and its failure is only reported. -/
theorem drawImage_leaves (drawing path : String) (s : Session) :
    Leaves (drawImage drawing path) s (s.tool.does (.image drawing path) s.disk)
      (s.tool.run (.image drawing path) s.disk).2 := by
  refine Leaves.attempt_bind (runTool_run _ s) ?_
  unfold Tool.does
  cases (s.tool.run (.image drawing path) s.disk).1 with
  | ok report =>
    by_cases hcode : (report.1 == 0) = true
    · simp only [hcode, if_true]
      exact Leaves.of_tells (Tells.pure true)
    · simp only [hcode, if_false, Bool.false_eq_true]
      exact Leaves.sayFalse _
  | error e =>
    -- A tool that is not there is reported in other words than the other faults.
    cases e <;> exact Leaves.sayFalse _

/-- The map is drawn if the tool does it, and its failure is only reported. -/
theorem drawMap_leaves (drawing path : String) (s : Session) :
    Leaves (drawMap drawing path) s (s.tool.does (.map drawing path) s.disk)
      (s.tool.run (.map drawing path) s.disk).2 := by
  refine Leaves.attempt_bind (runTool_run _ s) ?_
  unfold Tool.does
  cases (s.tool.run (.map drawing path) s.disk).1 with
  | ok report =>
    by_cases hcode : (report.1 == 0) = true
    · simp only [hcode, if_true]
      exact Leaves.of_tells (Tells.pure true)
    · simp only [hcode, if_false, Bool.false_eq_true]
      exact Leaves.sayFalse _
  | error e => exact Leaves.sayFalse _

/-! ## The page -/

section

variable {d e : Disk} {template : SourcePath} {files : OutputFiles} {description : Value}

def Disk.filledPage (d : Disk) (template : SourcePath) (files : OutputFiles) (description : Value) :
    Except Fault String := do
  let text ← d.readText template
  let map ← d.readText (SourcePath.ofText files.map)
  return fillTemplate text map (SourcePath.ofText files.image).name description.asciiJson

def Disk.withPage (d : Disk) (template : SourcePath) (files : OutputFiles) (description : Value) :
    Except Fault Disk := do
  let page ← d.filledPage template files description
  d.write files.page (.text page)

/-- The page can be written: template and map can be read, and there is room for the page. -/
structure Disk.TakesPage (d : Disk) (template : SourcePath) (files : OutputFiles) : Prop where
  template : ∃ text, d.readText template = .ok text
  map : ∃ text, d.readText (SourcePath.ofText files.map) = .ok text
  page : d.Takes files.page

/-- If a page is written, the disk takes it and holds the filled page. -/
theorem Disk.withPage_eq_ok (h : d.withPage template files description = .ok e) :
    d.TakesPage template files ∧ ∃ page, d.filledPage template files description = .ok page ∧
      d.write files.page (.text page) = .ok e := by
  rcases bind_eq_ok h with ⟨page, hpage, hwrite⟩
  rcases bind_eq_ok hpage with ⟨text, htemplate, hrest⟩
  rcases bind_eq_ok hrest with ⟨map, hmap, -⟩
  have htakes : d.Takes files.page := (Disk.write_ok_iff _).1 ⟨e, hwrite⟩
  exact ⟨⟨⟨text, htemplate⟩, ⟨map, hmap⟩, htakes⟩, page, hpage, hwrite⟩

/-- A disk that takes a page can write it, whatever is described. -/
theorem Disk.TakesPage.withPage (h : d.TakesPage template files) (description : Value) :
    ∃ e, d.withPage template files description = .ok e := by
  rcases h with ⟨⟨text, htemplate⟩, ⟨map, hmap⟩, hpage⟩
  rw [Disk.withPage, Disk.filledPage, htemplate, hmap]
  exact (Disk.write_ok_iff _).2 hpage

/-- Without a template no page is written. -/
theorem Disk.withPage_of_exists? (h : d.exists? template ≠ .ok true) (files : OutputFiles)
    (description : Value) : ∃ f, d.withPage template files description = .error f := by
  rcases Disk.readText_of_exists? h with ⟨f, htemplate⟩
  refine ⟨f, ?_⟩
  rw [Disk.withPage, Disk.filledPage, htemplate]
  rfl

end

/-- The page is written as the disk takes it, or nothing is changed. -/
theorem writeFilledPage_run (files : OutputFiles) (description : Value) (s : Session) :
    (∃ d, s.disk.withPage s.template files description = .ok d ∧
      writeFilledPage files description s = (.ok (), { s with disk := d })) ∨
    ∃ e, s.disk.withPage s.template files description = .error e ∧
      writeFilledPage files description s = (.error e, s) := by
  rw [writeFilledPage, get_bind_run, Disk.withPage, Disk.filledPage]
  dsimp only
  cases htemplate : s.disk.readText s.template with
  | error e => exact Or.inr ⟨e, rfl, rfl⟩
  | ok template =>
    rw [bind_run, orFail_ok_run]
    dsimp only
    cases hmap : s.disk.readText (SourcePath.ofText files.map) with
    | error e => exact Or.inr ⟨e, rfl, rfl⟩
    | ok map =>
      rw [bind_run, orFail_ok_run]
      dsimp only
      cases hwrite : s.disk.write files.page (.text (fillTemplate template map
          (SourcePath.ofText files.image).name description.asciiJson)) with
      | error e => exact Or.inr ⟨e, hwrite, writeFile_fails hwrite⟩
      | ok d => exact Or.inl ⟨d, hwrite, writeFile_run hwrite⟩

/-- The page is written, or what goes wrong is reported and the files stay. -/
theorem writePage_leaves (files : OutputFiles) (description : Value) (s : Session) :
    Leaves (writePage files description) s ()
      ((s.disk.withPage s.template files description).toOption.getD s.disk) := by
  have hget : Tells (get : Action Session) s s := ⟨s.log, rfl⟩
  refine Leaves.after hget (fun log => ?_)
  by_cases hexists : s.disk.exists? s.template = .ok true
  · rw [hexists]
    rcases writeFilledPage_run files description { s with log := log } with
      ⟨d, hpage, hrun⟩ | ⟨e, hpage, hrun⟩
    · have hpage : s.disk.withPage s.template files description = .ok d := hpage
      rw [hpage]
      exact Leaves.attempt_bind hrun (Leaves.of_tells (Tells.pure ()))
    · have hpage : s.disk.withPage s.template files description = .error e := hpage
      rw [hpage]
      exact Leaves.attempt_bind (d := s.disk) hrun (Leaves.of_tells (Tells.say _))
  · -- Without a template there is no page.
    rcases Disk.withPage_of_exists? hexists files description with ⟨f, hpage⟩
    rw [hpage]
    cases hfound : s.disk.exists? s.template with
    | error e => exact Leaves.attempt_bind (d := s.disk) rfl (Leaves.of_tells (Tells.say _))
    | ok found =>
      cases found with
      | true => exact absurd hfound hexists
      | false =>
        have htold : Tells (do
            if ← orFail (.ok false) then writeFilledPage files description
            else sayNoTemplate s.template) { s with log := log } () :=
          Tells.bind (Tells.orFail rfl) (fun _ => Tells.sayAll _)
        exact Leaves.after htold.attempt (fun _ => Leaves.of_tells (Tells.pure ()))

/-! ## Everything together -/

/-- A drawing before its page is written. -/
structure Drawn where
  disk : Disk
  description : Value
  template : SourcePath
  /-- Whether both runs of the drawing tool report success. -/
  complete : Bool

def Session.drawn (s : Session) (name : String) : Except Fault Drawn := do
  let files := OutputFiles.ofName name
  let text ← s.project.dotText
  let d₁ ← s.disk.write files.drawing (.text text)
  let description ← s.project.graph.metadata s.workingDirectory
  let d₂ ← d₁.write files.metadata (.text description.asciiJson)
  let image := ToolTask.image files.drawing files.image
  let map := ToolTask.map files.drawing files.map
  let d₃ := (s.tool.run image d₂).2
  return ⟨(s.tool.run map d₃).2, description, s.template, s.tool.does image d₂ &&
    s.tool.does map d₃⟩

/-- What is answered: the names of the page and of the description when image and map were made. -/
def Drawn.answer (r : Drawn) (files : OutputFiles) : Option (String × String) :=
  if r.complete then some (files.page, files.metadata) else none

theorem Drawn.complete_of_answer {r : Drawn} {files : OutputFiles} {answered : String × String}
    (h : some answered = r.answer files) : r.complete = true := by
  cases hcomplete : r.complete with
  | false =>
    rw [Drawn.answer, hcomplete] at h
    cases h
  | true => rfl

/-- The files after the page is written, if it can be, or left out. -/
def Drawn.finished (r : Drawn) (files : OutputFiles) : Disk :=
  if r.complete then (r.disk.withPage r.template files r.description).toOption.getD
    r.disk else r.disk

/-- A drawing that can be made leaves its files, and its answer names them. -/
theorem generatePlain_leaves {s : Session} {name : String} {r : Drawn} (h : s.drawn name = .ok r) :
    Leaves (generatePlain name) s (r.answer (OutputFiles.ofName name))
      (r.finished (OutputFiles.ofName name)) := by
  rcases bind_eq_ok h with ⟨text, htext, h⟩
  rcases bind_eq_ok h with ⟨d₁, hdrawing, h⟩
  rcases bind_eq_ok h with ⟨description, hdescription, h⟩
  rcases bind_eq_ok h with ⟨d₂, hmetadata, h⟩
  cases h
  refine Leaves.after Tells.theProject (fun _ => ?_)
  refine Leaves.after (Tells.orFail htext) (fun _ => ?_)
  refine Leaves.bind (Leaves.writeFile hdrawing) (fun _ => ?_)
  refine Leaves.after ⟨_, rfl⟩ (fun _ => ?_)
  refine Leaves.after (Tells.orFail hdescription) (fun _ => ?_)
  refine Leaves.bind (Leaves.writeFile hmetadata) (fun _ => ?_)
  refine Leaves.bind (drawImage_leaves _ _ _) (fun _ => ?_)
  refine Leaves.bind (drawMap_leaves _ _ _) (fun _ => ?_)
  unfold Drawn.answer Drawn.finished
  split
  · refine Leaves.bind (writePage_leaves _ _ _) (fun _ => ?_)
    exact Leaves.after (Tells.sayAll _) (fun _ => Leaves.of_tells (Tells.pure _))
  · exact Leaves.after (Tells.say _) (fun _ => Leaves.of_tells (Tells.pure none))

/-- A generation that succeeds made its drawing. -/
theorem generatePlain_ensures_drawn (name : String) (s : Session) :
    Ensures (generatePlain name) s (fun _ _ => ∃ r, s.drawn name = .ok r) := by
  refine Ensures.bind (Ensures.of_run (theProject_run s) ?_)
  refine Ensures.bind (Ensures.orFail (fun text htext => ?_))
  refine Ensures.bind ((writeFile_ensures _ _ _).weaken ?_)
  rintro _ _ ⟨d₁, hdrawing, rfl⟩
  refine Ensures.bind (Ensures.of_run (x := { s with disk := d₁ }) rfl ?_)
  refine Ensures.bind (Ensures.orFail (fun description hdescription => ?_))
  refine Ensures.bind ((writeFile_ensures _ _ _).weaken ?_)
  rintro _ _ ⟨d₂, hmetadata, rfl⟩
  intro _ _ _
  refine exists_bind_eq_ok htext ?_
  refine exists_bind_eq_ok hdrawing ?_
  refine exists_bind_eq_ok hdescription ?_
  exact exists_bind_eq_ok hmetadata ⟨_, rfl⟩

/-! ## Summaries -/

/-- The summary that follows a drawing can be made: without further facts none is asked for. -/
def Session.Reports (s : Session) : Prop :=
  s.project.depth = .plain ∨ ∃ lines, s.project.graph.summary = .ok lines

/-- A summary that can be given is only reported. -/
theorem reportFullSummary_tells {s : Session} {lines : List String}
    (h : s.project.graph.summary = .ok lines) : Tells reportFullSummary s () := by
  have hfirst : Tells reportSummary s () := by
    refine Tells.bind Tells.theGraph (fun _ => ?_)
    exact Tells.bind (Tells.orFail h) (fun _ => Tells.sayAll lines)
  refine Tells.bind hfirst (fun _ => ?_)
  exact Tells.bind Tells.theProject (fun _ => Tells.sayAll _)

theorem reportFullSummary_ensures (s : Session) :
    Ensures reportFullSummary s (fun _ _ => ∃ lines, s.project.graph.summary = .ok lines) := by
  have hfirst : Ensures reportSummary s
      (fun _ _ => ∃ lines, s.project.graph.summary = .ok lines) := by
    refine Ensures.bind (Ensures.of_run (theGraph_run s) ?_)
    exact Ensures.bind (Ensures.orFail (fun lines hlines => fun _ _ _ => ⟨lines, hlines⟩))
  exact Ensures.bind (hfirst.weaken (fun _ _ hlines => fun _ _ _ => hlines))

/-- The drawing is made so far, and nothing that follows can fail. -/
structure Session.Draws (s : Session) (name : String) (r : Drawn) : Prop where
  drawn : s.drawn name = .ok r
  reports : s.Reports

/-- The generation leaves the files of its drawing, and its answer names them. -/
theorem generate_leaves {s : Session} {name : String} {r : Drawn} (h : s.Draws name r) :
    Leaves (generate name) s (r.answer (OutputFiles.ofName name))
      (r.finished (OutputFiles.ofName name)) := by
  refine Leaves.bind (generatePlain_leaves h.drawn) (fun log => ?_)
  refine Leaves.after Tells.theProject (fun log' => ?_)
  split
  · rename_i hdepth
    rcases h.reports with hplain | ⟨lines, hlines⟩
    · simp [hplain] at hdepth
    · exact Leaves.after (reportFullSummary_tells hlines) (fun _ => Leaves.of_tells (Tells.pure _))
  · exact Leaves.of_tells (Tells.pure _)

/-- Drawing succeeds only as described. -/
theorem generate_ok {s t : Session} {name : String} {files? : Option (String × String)}
    (h : generate name s = (.ok files?, t)) :
    ∃ r, s.Draws name r ∧ files? = r.answer (OutputFiles.ofName name) ∧
      t.disk = r.finished (OutputFiles.ofName name) := by
  have hdrawn : Ensures (generate name) s (fun _ _ => ∃ r, s.Draws name r) := by
    refine Ensures.bind (fun x u hrun => ?_)
    rcases generatePlain_ensures_drawn name s x u hrun with ⟨r, hr⟩
    rcases generatePlain_leaves hr with ⟨log, hrun'⟩
    cases hrun.symm.trans hrun'
    refine Ensures.bind (Ensures.of_run (theProject_run _) ?_)
    split
    · refine Ensures.bind ((reportFullSummary_ensures _).weaken ?_)
      intro _ _ hlines
      exact fun _ _ _ => ⟨r, hr, Or.inr hlines⟩
    · rename_i hdepth
      have hplain : s.project.depth = .plain := by simpa using hdepth
      exact fun _ _ _ => ⟨r, hr, Or.inl hplain⟩
  rcases hdrawn files? t h with ⟨r, hr⟩
  rcases generate_leaves hr with ⟨log, hrun⟩
  cases h.symm.trans hrun
  exact ⟨r, hr, rfl, rfl⟩

/-! ## The page afterwards -/

/-- What becomes of the page of a drawing. -/
inductive Drawn.Outcome (r : Drawn) (files : OutputFiles) (e : Disk) : Prop where
  /-- Image and map were made, and the page is written and found. -/
  | written (hcomplete : r.complete = true) (page : String)
      (hpage : r.disk.filledPage r.template files r.description = .ok page)
      (hwrite : r.disk.write files.page (.text page) = .ok e)
      (hfound : e.find files.page = .ok (.text page))
  /-- Image and map were made, but the page cannot be written and is left out. -/
  | leftOut (hcomplete : r.complete = true) (hcannot : ¬ r.disk.TakesPage r.template files)
      (hsame : e = r.disk)
  /-- Image or map were not made, and no page is written. -/
  | incomplete (hcomplete : r.complete = false) (hsame : e = r.disk)

theorem Drawn.outcome_finished (r : Drawn) (files : OutputFiles) :
    r.Outcome files (r.finished files) := by
  unfold Drawn.finished
  cases hcomplete : r.complete with
  | false => exact .incomplete hcomplete rfl
  | true =>
    cases hpage : r.disk.withPage r.template files r.description with
    | error e =>
      refine .leftOut hcomplete (fun htakes => ?_) rfl
      rcases htakes.withPage r.description with ⟨d, hd⟩
      cases hpage.symm.trans hd
    | ok d =>
      rcases Disk.withPage_eq_ok hpage with ⟨-, page, hfilled, hwrite⟩
      exact .written hcomplete page hfilled hwrite (Disk.find_of_write (by simp) hwrite)

/-- What a drawing that succeeds answers, and what becomes of its page. -/
theorem generate_outcome {s t : Session} {name : String} {files? : Option (String × String)}
    (h : generate name s = (.ok files?, t)) :
    ∃ r, s.Draws name r ∧ files? = r.answer (OutputFiles.ofName name) ∧
      r.Outcome (OutputFiles.ofName name) t.disk := by
  rcases generate_ok h with ⟨r, hdraws, hanswer, hdisk⟩
  rw [hdisk]
  exact ⟨r, hdraws, hanswer, r.outcome_finished _⟩

/-- If every part of a drawing is made, the generation names the files. -/
theorem generate_of_complete {s : Session} {name : String} {r : Drawn} (h : s.Draws name r)
    (hcomplete : r.complete = true) : ∃ files t, generate name s = (.ok (some files), t) := by
  rcases generate_leaves h with ⟨log, hrun⟩
  rw [Drawn.answer, if_pos hcomplete] at hrun
  exact ⟨_, _, hrun⟩

end JavaDeps
