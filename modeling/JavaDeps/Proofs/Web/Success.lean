import JavaDeps.Proofs.Web.Generate

/-!
# Success that is reported

A drawing, a request for a new drawing and the command to draw again each report success. The first
two look at the image and the map, the third at nothing: none of them looks at the page, which may
be missing although success was reported.
-/

namespace JavaDeps

/-! ## Requests for a new drawing -/

namespace Server

/-- A request is answered with success exactly if the selection succeeds and a drawing is made. -/
theorem answerGenerate_success_iff (fields : List (String × Value))
    (drawing : String) (s : Session) :
    Leads (answerGenerate fields drawing) s (fun v t => v.field? "success" = some (.bool true) ↔
      (chosenIds fields).isTruthy = true ∧ ∃ u files,
        filterProject (chosenIds fields) s = (.ok (), u) ∧
          generate drawing u = (.ok (some files), t)) := by
  have hfailed : ∀ {v : Value}, Fails v → v.field? "success" ≠ some (.bool true) := by
    intro v hfails hsuccess
    cases hfails.symm.trans hsuccess
  by_cases hids : (chosenIds fields).isTruthy = true
  · rcases hselect : filterProject (chosenIds fields) s with ⟨e | ⟨⟩, u⟩
    · refine (answerGenerate_notSelected hids hselect).weaken ?_
      rintro v t ⟨hfails, -⟩
      refine ⟨fun hsuccess => absurd hsuccess (hfailed hfails), ?_⟩
      rintro ⟨-, u', files, hselect', -⟩
      cases hselect'
    · by_cases hdraw : ∃ files t, generate drawing u = (.ok (some files), t)
      · rcases hdraw with ⟨files, t, hdraw⟩
        rcases answerGenerate_succeeds hids hselect hdraw with ⟨v, hrun, hsuccess⟩
        exact Leads.of_run hrun ⟨fun _ => ⟨hids, u, files, rfl, hdraw⟩, fun _ => hsuccess⟩
      · have hnot : ∀ files t, generate drawing u ≠ (.ok (some files), t) :=
          fun files t hrun => hdraw ⟨files, t, hrun⟩
        refine (answerGenerate_notDrawn hids hselect hnot).weaken ?_
        rintro v t ⟨hfails, -⟩
        refine ⟨fun hsuccess => absurd hsuccess (hfailed hfails), ?_⟩
        rintro ⟨-, u', files, hselect', hdraw'⟩
        cases hselect'
        exact absurd hdraw' (hnot files t)
  · have hnone : (chosenIds fields).isTruthy = false := by simpa using hids
    refine (answerGenerate_nothingChosen hnone).weaken ?_
    rintro v t ⟨hfails, -⟩
    exact ⟨fun hsuccess => absurd hsuccess (hfailed hfails), fun h => absurd h.1 hids⟩

end Server

/-! ## The command to draw again -/

/-- The command to draw again draws again. -/
theorem Command.run_regenerate {c : Command} (h : c.name = .str "regenerate") (drawing : String) :
    c.run drawing = regenerate drawing := by
  rw [Command.run, h]
  rfl

/-- Drawing again is answered with success, whatever the answer of the drawing is. -/
theorem Command.regenerate_run {s t : Session} {drawing : String}
    {files? : Option (String × String)}
    (h : generate drawing s = (.ok files?, t)) :
    ∃ v, regenerate drawing s = (.ok v, t) ∧ v.field? "success" = some (.bool true) := by
  rw [regenerate, bind_run, h]
  exact ⟨_, rfl, rfl⟩

/-- Drawing again succeeds only if the generation does. -/
theorem Command.regenerate_ensures (drawing : String) (s : Session) :
    Ensures (regenerate drawing) s (fun _ t => ∃ files?, generate drawing s = (.ok files?, t)) := by
  refine Ensures.bind (fun files? t hrun => ?_)
  exact Ensures.of_run (pure_run _ t) ⟨files?, hrun⟩

/-! ## Success and the page -/

/-- Whatever the session is, drawing answers with the names of page and description exactly if image
and map are made; a request for a new drawing is answered with success exactly if this happens with
the graph that it selects; and the command to draw again is answered with success even if image and
map are not made. None of them depends on the page: it is written, and then found, exactly if image
and map are made, template and map can be read and there is room for it, and otherwise the files
stay as they were before the page. -/
theorem success_without_looking_at_page (name : String) (s : Session) :
    ((∃ files t, generate name s = (.ok (some files), t)) ↔
      ∃ r, s.Draws name r ∧ r.complete = true) ∧
    (∀ files? t, generate name s = (.ok files?, t) →
      ∃ r, s.Draws name r ∧ files? = r.answer (OutputFiles.ofName name) ∧
        r.Outcome (OutputFiles.ofName name) t.disk) ∧
    (∀ fields, ∃ v t, Server.answerGenerate fields name s = (.ok v, t) ∧
      (v.field? "success" = some (.bool true) ↔
        (Server.chosenIds fields).isTruthy = true ∧ ∃ u r,
          filterProject (Server.chosenIds fields) s = (.ok (), u) ∧ u.Draws name r ∧
          r.complete = true ∧ r.Outcome (OutputFiles.ofName name) t.disk)) ∧
    (∀ c : Command, c.name = .str "regenerate" →
      ((∃ v t, c.run name s = (.ok v, t) ∧ v.field? "success" = some (.bool true)) ↔
        ∃ r, s.Draws name r) ∧
      ∀ v t, c.run name s = (.ok v, t) →
        ∃ r, s.Draws name r ∧ r.Outcome (OutputFiles.ofName name) t.disk) := by
  refine ⟨⟨?_, ?_⟩, fun files? t hrun => generate_outcome hrun, ?_, ?_⟩
  · rintro ⟨files, t, hrun⟩
    rcases generate_outcome hrun with ⟨r, hdraws, hanswer, -⟩
    exact ⟨r, hdraws, Drawn.complete_of_answer hanswer⟩
  · rintro ⟨r, hdraws, hcomplete⟩
    exact generate_of_complete hdraws hcomplete
  · intro fields
    rcases Server.answerGenerate_success_iff fields name s with ⟨v, t, hrun, hsuccess⟩
    refine ⟨v, t, hrun, hsuccess.trans ⟨?_, ?_⟩⟩
    · rintro ⟨hids, u, files, hselect, hdraw⟩
      rcases generate_outcome hdraw with ⟨r, hdraws, hanswer, houtcome⟩
      exact ⟨hids, u, r, hselect, hdraws, Drawn.complete_of_answer hanswer, houtcome⟩
    · rintro ⟨hids, u, r, hselect, hdraws, hcomplete, -⟩
      -- The session after the drawing is the one that the request ends with.
      rcases generate_of_complete hdraws hcomplete with ⟨files, t', hdraw⟩
      rcases Server.answerGenerate_succeeds hids hselect hdraw with ⟨v', hrun', -⟩
      cases hrun.symm.trans hrun'
      exact ⟨hids, u, files, hselect, hdraw⟩
  · intro c hc
    rw [Command.run_regenerate hc]
    refine ⟨⟨?_, ?_⟩, ?_⟩
    · rintro ⟨v, t, hrun, -⟩
      rcases Command.regenerate_ensures name s v t hrun with ⟨files?, hdraw⟩
      rcases generate_ok hdraw with ⟨r, hdraws, -⟩
      exact ⟨r, hdraws⟩
    · rintro ⟨r, hdraws⟩
      rcases generate_leaves hdraws with ⟨log, hdraw⟩
      rcases Command.regenerate_run hdraw with ⟨v, hrun, hsuccess⟩
      exact ⟨v, _, hrun, hsuccess⟩
    · intro v t hrun
      rcases Command.regenerate_ensures name s v t hrun with ⟨files?, hdraw⟩
      rcases generate_outcome hdraw with ⟨r, hdraws, -, houtcome⟩
      exact ⟨r, hdraws, houtcome⟩

def Tool.working : Tool where
  run task d := match task with
    | .version => (.ok (0, ""), d)
    | .image _ path => (.ok (0, ""), (d.write path (.bytes [137, 80, 78, 71])).toOption.getD d)
    | .map _ path => (.ok (0, ""), (d.write path (.text "<map name=\"g\"></map>")).toOption.getD d)

def drawingSession (d : Disk) : Session := { Session.ofDisk d with tool := .working }

def templateDisk : Disk :=
  (default : Disk).put (Session.ofDisk default).template
    (.text ("<img src=" ++ templateMark "IMAGE_FILENAME" ++ ">"))

/-- With a template the page is written. -/
theorem page_from_template :
    ∃ t r, generate "g.dot" (drawingSession templateDisk) =
        (.ok (some ("g.html", "g_metadata.json")), t) ∧
      (drawingSession templateDisk).Draws "g.dot" r ∧
        r.Outcome (OutputFiles.ofName "g.dot") t.disk ∧
      (t.disk.find "g.html").toOption = some (.text "<img src=g.png>") := by
  rcases exists_of_run (a := generate "g.dot") (s := drawingSession templateDisk)
    (p := fun files? => files? == some ("g.html", "g_metadata.json"))
    (q := fun t => (t.disk.find "g.html").toOption == some (.text "<img src=g.png>"))
    (by decide +kernel) with ⟨files?, t, hrun, hfiles, hpage⟩
  rw [eq_of_beq hfiles] at hrun
  rcases (success_without_looking_at_page "g.dot" (drawingSession templateDisk)).2.1 _ t hrun with
    ⟨r, hdraws, -, houtcome⟩
  exact ⟨t, r, hrun, hdraws, houtcome, eq_of_beq hpage⟩

/-- Without a template a drawing, a request and the command to draw again all report success, the
command even without a drawing tool; but there is no page afterwards. -/
theorem success_without_page :
    (∃ t, generate "g.dot" (drawingSession default) =
        (.ok (some ("g.html", "g_metadata.json")), t) ∧ t.disk.holds "g.html" = false) ∧
    (∃ v t, Server.answerGenerate [("selectedFunctions", Value.ofNames ["class_A"])] "g.dot"
          (drawingSession default) = (.ok v, t) ∧
        v.field? "success" = some (.bool true) ∧ t.disk.holds "g.html" = false) ∧
    (∃ v t, (Command.ofFields [("command", .str "regenerate")]).run "g.dot"
          (Session.ofDisk default) = (.ok v, t) ∧
        v.field? "success" = some (.bool true) ∧ t.disk.holds "g.html" = false) := by
  refine ⟨?_, ?_, ?_⟩
  · rcases exists_of_run (a := generate "g.dot") (s := drawingSession default)
      (p := fun files? => files? == some ("g.html", "g_metadata.json"))
      (q := fun t => !t.disk.holds "g.html") (by decide +kernel) with
      ⟨files?, t, hrun, hfiles, hpage⟩
    exact ⟨t, by rw [hrun, eq_of_beq hfiles], by simpa using hpage⟩
  · rcases exists_of_run (a := filterProject (Value.ofNames ["class_A"]))
      (s := drawingSession default) (p := fun _ => true)
      (q := fun u => (generate "g.dot" u).1.toOption.any Option.isSome &&
        !(generate "g.dot" u).2.disk.holds "g.html") (by decide +kernel) with
      ⟨⟨⟩, u, hselect, -, htest⟩
    rcases exists_of_run (q := fun t => !t.disk.holds "g.html") htest with
      ⟨files?, t, hdraw, hfiles, hpage⟩
    rcases Option.isSome_iff_exists.1 hfiles with ⟨files, rfl⟩
    have hids : (Server.chosenIds
        [("selectedFunctions", Value.ofNames ["class_A"])]).isTruthy = true := rfl
    rcases Server.answerGenerate_succeeds hids hselect hdraw with ⟨v, hrun, hsuccess⟩
    exact ⟨v, t, hrun, hsuccess, by simpa using hpage⟩
  · rcases exists_of_run (a := generate "g.dot")
      (s := Session.ofDisk default) (p := fun _ => true)
      (q := fun t => !t.disk.holds "g.html") (by decide +kernel) with ⟨files?, t, hdraw, -, hpage⟩
    rcases Command.regenerate_run hdraw with ⟨v, hrun, hsuccess⟩
    refine ⟨v, t, ?_, hsuccess, by simpa using hpage⟩
    rw [Command.run_regenerate rfl]
    exact hrun

end JavaDeps
