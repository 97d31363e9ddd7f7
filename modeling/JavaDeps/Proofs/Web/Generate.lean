import JavaDeps.Proofs.Output.Drawing
import JavaDeps.Proofs.Selection.History
import JavaDeps.Proofs.Selection.Undone
import JavaDeps.Web.Server

/-!
# Requests for a drawing that fail

A request for a new drawing first restricts the graph to what was chosen, and draws it afterwards.
The restriction is not taken back when the drawing fails. A request that fails before, because
nothing was chosen or because the selection fails, leaves the graph as it was.
-/

namespace JavaDeps

/-! ## Drawings -/

theorem say_preserves (text : String) : Preserves Session.project (say text) := fun _ => rfl

theorem writeFile_preserves (path : String) (c : Content) :
    Preserves Session.project (writeFile path c) := by
  refine Preserves.get_bind (fun s => ?_)
  exact Preserves.bind (Preserves.orFail _) (fun _ _ => rfl)

/-- What always succeeds and only writes files leaves the project alone. -/
theorem Leaves.preserves {α : Type} {a : Action α} (h : ∀ s, ∃ x d, Leaves a s x d) :
    Preserves Session.project a := by
  intro s
  rcases h s with ⟨x, d, log, hrun⟩
  rw [hrun]

/-- Drawing leaves the project as it was. -/
theorem generatePlain_preserves (name : String) :
    Preserves Session.project (generatePlain name) := by
  refine Preserves.theProject_bind (fun p => ?_)
  refine Preserves.bind (Preserves.orFail _) (fun text => ?_)
  refine Preserves.bind (writeFile_preserves _ _) (fun _ => ?_)
  refine Preserves.get_bind (fun s => ?_)
  refine Preserves.bind (Preserves.orFail _) (fun metadata => ?_)
  refine Preserves.bind (writeFile_preserves _ _) (fun _ => ?_)
  refine Preserves.bind (Leaves.preserves (fun s => ⟨_, _, drawImage_leaves _ _ s⟩))
    (fun image => ?_)
  refine Preserves.bind (Leaves.preserves (fun s => ⟨_, _, drawMap_leaves _ _ s⟩)) (fun map => ?_)
  split
  · refine Preserves.bind (Leaves.preserves (fun s => ⟨_, _, writePage_leaves _ _ s⟩)) (fun _ => ?_)
    exact Preserves.bind (Preserves.forM say_preserves _) (fun _ => Preserves.pure _)
  · exact Preserves.bind (say_preserves _) (fun _ => Preserves.pure none)

/-- Whether a drawing is made or not, the project is left alone. -/
theorem generate_preserves_project (name : String) :
    Preserves (fun s => s.project) (generate name) := by
  have hsummary : Preserves Session.project reportFullSummary := by
    have hfirst : Preserves Session.project reportSummary := by
      refine Preserves.theGraph_bind (fun g => ?_)
      exact Preserves.bind (Preserves.orFail _) (fun texts => Preserves.forM say_preserves texts)
    refine Preserves.bind hfirst (fun _ => ?_)
    exact Preserves.theProject_bind (fun p => Preserves.forM say_preserves _)
  refine Preserves.bind (generatePlain_preserves name) (fun result => ?_)
  refine Preserves.theProject_bind (fun p => ?_)
  split
  · exact Preserves.bind hsummary (fun _ => Preserves.pure result)
  · exact Preserves.pure result

/-! ## Requests -/

namespace Server

def chosenIds (fields : List (String × Value)) : Value :=
  (fields.lookup "selectedFunctions").getD (.list [])

/-- How a request for a new drawing comes to nothing, and what it leaves of the graph. -/
inductive Refused (ids : Value) (drawing : String) (s t : Session) : Prop where
  /-- Nothing is chosen, and nothing is done. -/
  | nothingChosen (hids : ids.isTruthy = false) (hsame : t = s)
  /-- The selection fails, and the graph is as it was. -/
  | notSelected (hids : ids.isTruthy = true) (e : Fault) (u : Session)
      (hselect : filterProject ids s = (.error e, u)) (hsame : t.project.graph = s.project.graph)
  /-- The selection succeeds, but no drawing is made: the graph is the selected one. -/
  | notDrawn (hids : ids.isTruthy = true) (u : Session)
      (hselect : filterProject ids s = (.ok (), u))
      (hdraw : ∀ files v, generate drawing u ≠ (.ok (some files), v))
      (hkept : t.project.graph = u.project.graph)

def Fails (v : Value) : Prop := v.field? "success" = some (.bool false)

theorem fails_answer (message : String) : Fails (answer false message) := rfl

section

variable {fields : List (String × Value)} {drawing : String} {s u : Session}

/-- If nothing is chosen, the answer is a failure, and nothing is changed. -/
theorem answerGenerate_nothingChosen (hids : (chosenIds fields).isTruthy = false) :
    Leads (answerGenerate fields drawing) s (fun v t => Fails v ∧ t = s) := by
  have hnone : ¬ (chosenIds fields).isTruthy = true := by simp [hids]
  have hrun : answerGenerate fields drawing =
      pure (answer false "Không có function nào được chọn") := if_neg hnone
  rw [hrun]
  exact Leads.of_run (pure_run _ s) ⟨fails_answer _, rfl⟩

/-- What is made of the attempt to draw a selection. -/
theorem answerGenerate_run (hids : (chosenIds fields).isTruthy = true) :
    answerGenerate fields drawing s =
      (.ok (match (drawSelection (chosenIds fields) drawing s).1 with
        | .ok v => v
        | .error e => answer false ("Lỗi khi tạo graph: " ++ e.message)),
      (drawSelection (chosenIds fields) drawing s).2) := by
  have hrun : answerGenerate fields drawing = (do
      match ← attempt (drawSelection (chosenIds fields) drawing) with
      | .ok v => return v
      | .error e => return answer false ("Lỗi khi tạo graph: " ++ e.message)) := if_pos hids
  rw [hrun, bind_run, attempt_run]
  rcases drawSelection (chosenIds fields) drawing s with ⟨e | v, t⟩
  · rfl
  · rfl

/-- If the selection fails, the answer is a failure. -/
theorem answerGenerate_notSelected (hids : (chosenIds fields).isTruthy = true) {e : Fault}
    (hselect : filterProject (chosenIds fields) s = (.error e, u)) :
    Leads (answerGenerate fields drawing) s (fun v t => Fails v ∧ t = u) := by
  have hdraw : drawSelection (chosenIds fields) drawing s = (.error e, u) := by
    unfold drawSelection
    rw [bind_run, hselect]
  refine Leads.of_run (answerGenerate_run hids) ?_
  rw [hdraw]
  exact ⟨fails_answer _, rfl⟩

/-- After the selection the graph is drawn. -/
theorem drawSelection_run {ids : Value} (hselect : filterProject ids s = (.ok (), u)) :
    drawSelection ids drawing s = match generate drawing u with
      | (.ok (some (page, metadata)), t) => (do
          let count ← orFail ids.length
          return .obj
            [("success", .bool true),
             ("message", .str ("Graph đã được tạo với " ++ Text.ofNat count ++ " functions")),
             ("html_file", .str page), ("metadata_file", .str metadata)] : Action Value) t
      | (.ok none, t) => (.ok (answer false "Không thể tạo graph"), t)
      | (.error e, t) => (.error e, t) := by
  unfold drawSelection
  rw [bind_run, hselect]
  dsimp only
  rw [bind_run]
  rcases generate drawing u with ⟨e | _ | files, t⟩
  · rfl
  · rfl
  · rfl

/-- If the drawing is not made, the answer is a failure. -/
theorem answerGenerate_notDrawn (hids : (chosenIds fields).isTruthy = true)
    (hselect : filterProject (chosenIds fields) s = (.ok (), u))
    (hdraw : ∀ files v, generate drawing u ≠ (.ok (some files), v)) :
    Leads (answerGenerate fields drawing) s
      (fun v t => Fails v ∧ t.project.graph = u.project.graph) := by
  have hgraph := congrArg Project.graph (generate_preserves_project drawing u)
  refine Leads.of_run (answerGenerate_run hids) ?_
  rw [drawSelection_run hselect]
  -- Drawing fails, or it ends without image or map; the session is then the one that it left.
  rcases hrun : generate drawing u with ⟨e | _ | files, t⟩
  · rw [hrun] at hgraph
    exact ⟨fails_answer _, hgraph⟩
  · rw [hrun] at hgraph
    exact ⟨fails_answer _, hgraph⟩
  · exact absurd hrun (hdraw files t)

/-- A drawing of the selection is answered with success. -/
theorem answerGenerate_succeeds (hids : (chosenIds fields).isTruthy = true)
    (hselect : filterProject (chosenIds fields) s = (.ok (), u)) {files : String × String}
    {t : Session} (hdraw : generate drawing u = (.ok (some files), t)) :
    ∃ v, answerGenerate fields drawing s = (.ok v, t) ∧ v.field? "success" = some (.bool true) := by
  -- The answer counts the ids, which the selection has read before.
  rcases filterProject_ensures_length hids s () u hselect with ⟨n, hlength⟩
  rw [answerGenerate_run hids, drawSelection_run hselect, hdraw, hlength]
  exact ⟨_, rfl, rfl⟩

/-- If the drawing is made, the answer is a success. -/
theorem answerGenerate_drawn (hids : (chosenIds fields).isTruthy = true)
    (hselect : filterProject (chosenIds fields) s = (.ok (), u)) {files : String × String}
    {t : Session} (hdraw : generate drawing u = (.ok (some files), t)) :
    Leads (answerGenerate fields drawing) s (fun v _ => ¬ Fails v) := by
  rcases answerGenerate_succeeds hids hselect hdraw with ⟨v, hrun, hsuccess⟩
  refine Leads.of_run hrun (fun hfails => ?_)
  cases hsuccess.symm.trans hfails

end

/-- A request is always answered, and the answer tells of a failure exactly if the request comes to
nothing. -/
theorem answerGenerate_fails_iff {root : SourcePath} {s : Session}
    (hrooted : s.project.graph.Rooted root) (fields : List (String × Value)) (drawing : String) :
    Leads (answerGenerate fields drawing) s
      (fun v t => Fails v ↔ Refused (chosenIds fields) drawing s t) := by
  by_cases hids : (chosenIds fields).isTruthy = true
  · rcases hselect : filterProject (chosenIds fields) s with ⟨e | ⟨⟩, u⟩
    · refine (answerGenerate_notSelected hids hselect).weaken ?_
      rintro v t ⟨hfails, rfl⟩
      have hsame := filterProject_undone root _ s hrooted e t hselect
      exact ⟨fun _ => .notSelected hids e t hselect hsame, fun _ => hfails⟩
    · by_cases hdraw : ∃ files w, generate drawing u = (.ok (some files), w)
      · rcases hdraw with ⟨files, w, hdraw⟩
        refine (answerGenerate_drawn hids hselect hdraw).weaken (fun v t hdrawn => ?_)
        refine ⟨fun hfails => absurd hfails hdrawn, fun hrefused => ?_⟩
        -- None of the three ways agrees with a selection that succeeds and is drawn.
        cases hrefused with
        | nothingChosen hnone => exact absurd hids (by simp [hnone])
        | notSelected _ e u' hselect' => cases hselect.symm.trans hselect'
        | notDrawn _ u' hselect' hdraw' =>
          cases hselect.symm.trans hselect'
          exact absurd hdraw (hdraw' files w)
      · have hnot : ∀ files w, generate drawing u ≠ (.ok (some files), w) :=
          fun files w hrun => hdraw ⟨files, w, hrun⟩
        refine (answerGenerate_notDrawn hids hselect hnot).weaken ?_
        rintro v t ⟨hfails, hkept⟩
        exact ⟨fun _ => .notDrawn hids u hselect hnot hkept, fun _ => hfails⟩
  · have hnone : (chosenIds fields).isTruthy = false := by simpa using hids
    refine (answerGenerate_nothingChosen hnone).weaken ?_
    rintro v t ⟨hfails, rfl⟩
    exact ⟨fun _ => .nothingChosen hnone rfl, fun _ => hfails⟩

end Server

/-! ## Texts of requests -/

def generateRequest (body? : Option String) : Request := ⟨"POST", "/api/generate", body?⟩

namespace Server

/-- The record that is sent with a request, if its text is that of a record. -/
def sentFields? (body? : Option String) : Option (List (String × Value)) :=
  (body?.bind Value.ofJson?).bind (fun data => (fieldsOf data).toOption)

/-- What a request for a new drawing comes to. -/
inductive Generated (body? : Option String) (drawing : String) (s : Session) (r : Response)
    (t : Session) : Prop where
  /-- A record is sent and answered by another one, which tells of a failure exactly if the request
  comes to nothing. -/
  | answered (fields : List (String × Value))
      (hfields : sentFields? body? = some fields) (v : Value)
      (hresponse : r = Response.ok v)
      (hfails : v.field? "success" = some (.bool false) ↔ Refused (chosenIds fields) drawing s t)
  /-- Nothing is sent, or no record: the server fails, and nothing is done. -/
  | notRead (hfields : sentFields? body? = none)
      (hresponse : r = Response.failed 500) (hsame : t = s)

/-- An operation that fails is answered as an error of the server. -/
theorem respondWith_run (act : Action Value) (s : Session) :
    respondWith act s =
      (.ok (match (act s).1 with
        | .ok v => Response.ok v
        | .error _ => Response.failed 500), (act s).2) := by
  rw [respondWith, bind_run, attempt_run]
  rcases act s with ⟨e | v, t⟩
  · rfl
  · rfl

/-- What is sent to a path of the interface is read before anything else. -/
theorem respond_post (server : Server) {path : String} (hwords : Text.words path = [path])
    (hnormal : normalPath path = path) (hapi : Text.starts path "/api/" = true)
    (body? : Option String) (drawing : String) :
    server.respond ⟨"POST", path, body?⟩ drawing = match body?.bind Value.ofJson? with
      | some data => respondWith (server.answerPost path drawing data)
      | none => pure (Response.failed 500) := by
  have hmethod : Text.words "POST" = ["POST"] := by decide
  simp only [respond, hmethod, hwords, hnormal, respondTo, hapi, if_true]
  cases body? with
  | none => rfl
  | some text => rfl

variable {server : Server} (hproject : server.hasProject = true)
include hproject

theorem answerPost_generate (drawing : String) (data : Value) :
    server.answerPost "/api/generate" drawing data =
      (do answerGenerate (← orFail (fieldsOf data)) drawing) := by
  rw [answerPost, hproject]
  rfl

/-- What is sent is read, or the server fails before it looks at the project. -/
theorem respond_generateRequest (body? : Option String) (drawing : String) (s : Session) :
    server.respond (generateRequest body?) drawing s =
      match sentFields? body? with
      | some fields => respondWith (answerGenerate fields drawing) s
      | none => (.ok (Response.failed 500), s) := by
  rw [generateRequest, server.respond_post (by decide) (by decide) (by decide), sentFields?]
  cases body?.bind Value.ofJson? with
  | none => rfl
  | some data =>
    dsimp only [Option.bind_some]
    rw [answerPost_generate hproject]
    cases fieldsOf data with
    | error e => rfl
    | ok fields => rfl

end Server

/-- Let a project be analysed, and selected from and edited in any way. Whatever the disk, the table
of page functions and the drawing tool are by then, and whatever is sent, a request for a new
drawing is answered. If no record is sent, the server fails and nothing is changed. Otherwise the
answer tells of a failure exactly if the request comes to nothing in one of three ways: nothing is
chosen and nothing is changed, or the selection fails and the graph is as before, or the selection
succeeds and no drawing is made, and then the graph is the selected one. -/
theorem refused_request_graph (depth : Depth) (root : String) (s : Session) :
    ∃ t, (do openProject depth root; analyze : Action Unit) s = (.ok (), t) ∧
      ∀ (ops : List Operation) (u : Session),
        u.project.graph = (Operation.afterAll ops t).project.graph →
        ∀ (server : Server), server.hasProject = true →
        ∀ (body? : Option String) (drawing : String),
          ∃ r w, server.respond (generateRequest body?) drawing u = (.ok r, w) ∧
            Server.Generated body? drawing u r w := by
  rcases openProject_analyze_rooted depth root s with ⟨_, t, hrun, hrooted⟩
  refine ⟨t, hrun, ?_⟩
  intro ops u hgraph server hproject body? drawing
  have hu : u.project.graph.Rooted (SourcePath.ofText root) := hgraph ▸ hrooted ops
  rw [Server.respond_generateRequest hproject]
  cases hfields : Server.sentFields? body? with
  | none => exact ⟨_, u, rfl, .notRead hfields rfl rfl⟩
  | some fields =>
    rcases Server.answerGenerate_fails_iff hu fields drawing with ⟨v, w, hanswer, hfails⟩
    refine ⟨Response.ok v, w, ?_, .answered fields hfields v rfl hfails⟩
    simp only [Server.respondWith_run, hanswer]

def toollessSession : Session := { Session.ofDisk pairFiles with tool := .missing }

/-- A request for a drawing of the class `A` fails without a drawing tool, but the class `B` is
lost. -/
theorem class_lost_without_tool :
    ∃ t v w, (do openProject .plain "."; analyze : Action Unit) toollessSession = (.ok (), t) ∧
      Server.answerGenerate [("selectedFunctions", Value.ofNames ["class_A"])] "g.dot" t =
        (.ok v, w) ∧
      v.field? "success" = some (.bool false) ∧
      t.project.graph.classes.get? "B" = some ⟨"", ["B.java"]⟩ ∧
      w.project.graph.classes.get? "B" = none := by
  rcases selections_lead "." toollessSession with ⟨t, hrun, -, hselect⟩
  rcases hselect ["class_A"] [] (by decide) (by decide) with ⟨u, -, -, ⟨hfilter, -⟩, hu, -⟩
  have hgraph : t.project.graph = pairGraph :=
    (graph_of_analyze_plain hrun).trans analyzed_pairFiles
  -- The session is given by its run, so that what is drawn can be computed.
  have hu' : u = (filterProject (Value.ofNames ["class_A"])
      ((do openProject .plain "."; analyze : Action Unit) toollessSession).2).2 := by
    rw [hrun, hfilter]
  have hnone : (generate "g.dot" u).1.toOption.any Option.isSome = false := by
    rw [hu']
    decide +kernel
  have hdraw : ∀ files v, generate "g.dot" u ≠ (.ok (some files), v) := by
    intro files v hdrawn
    rw [hdrawn] at hnone
    cases hnone
  have hids : (Server.chosenIds
      [("selectedFunctions", Value.ofNames ["class_A"])]).isTruthy = true := rfl
  rcases Server.answerGenerate_notDrawn hids hfilter hdraw with ⟨v, w, hanswer, hfails, hkept⟩
  refine ⟨t, v, w, hrun, hanswer, hfails, ?_, ?_⟩
  · rw [hgraph]
    rfl
  · have hwhole : ¬ pairGraph.KeepsWhole ["class_A"] := by
      rintro (hnil | hall)
      · cases hnil
      · exact absurd hall (by decide)
    rw [hkept, hu, hgraph, Graph.filtered_of_not_keepsWhole hwhole, get?_classes_pairGraph]
    rfl

end JavaDeps
