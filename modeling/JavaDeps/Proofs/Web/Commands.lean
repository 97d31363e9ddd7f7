import JavaDeps.Proofs.Edits.Refused
import JavaDeps.Proofs.Web.Generate

/-!
# Requests to edit the graph

A request to edit the graph names a command and what the command needs. A command that is not known,
or that lacks something, is refused at once. Every other command but the one that draws the graph
again is an operation on the graph, and the answer tells whether the operation worked.
-/

namespace JavaDeps

/-! ## Commands -/

def Session.withGraph (s : Session) (g : Graph) : Session :=
  { s with project := { s.project with graph := g } }

@[simp] theorem Session.withGraph_graph (s : Session) (g : Graph) :
    (s.withGraph g).project.graph = g := rfl

@[simp] theorem Session.withGraph_self (s : Session) : s.withGraph s.project.graph = s := rfl

namespace Command

def works {α : Type} (r : Except Fault α × Graph) : Except Fault Bool × Graph :=
  (r.1.map (fun _ => true), r.2)

/-- The operation that a command asks for, and its effect on the graph. -/
inductive Asks (c : Command) : Operation → (Graph → Except Fault Bool × Graph) → Prop where
  | hideNode (hname : c.name = .str "hide_node") :
      c.Asks (.hideNode c.node) (fun g => works (g.hideNode c.node))
  | showNode (hname : c.name = .str "show_node") :
      c.Asks (.showNode c.node) (fun g => works (g.showNode c.node))
  | deleteNode (hname : c.name = .str "delete_node") :
      c.Asks (.deleteNode c.node) (fun g => works (g.deleteNode c.node))
  | addNode (hname : c.name = .str "add_node") (hnode : c.node.isTruthy = true) :
      c.Asks (.addNode c.node (orElse c.classes (.list [])) (orElse c.color (.str defaultColor)))
        (fun g => works
          (g.addNode c.node (orElse c.classes (.list [])) (orElse c.color (.str defaultColor))))
  | resetColor (hname : c.name = .str "reset_color") :
      c.Asks (.resetColor c.node) (fun g => works (g.resetColor c.node))
  | setColor (hname : c.name = .str "set_color") :
      c.Asks (.setColor c.node c.color) (fun g => works (g.setColor c.node c.color))
  | addEdge (hname : c.name = .str "add_edge") :
      c.Asks (.addEdge c.source c.target (orElse c.methods (.list [])))
        (fun g => g.addEdge c.source c.target (orElse c.methods (.list [])))
  | deleteEdge (hname : c.name = .str "delete_edge") :
      c.Asks (.deleteEdge c.source c.target) (fun g => g.deleteEdge c.source c.target)
  | relabel (hname : c.name = .str "update_edge_label") (hmethods : c.methods.isTruthy = true) :
      c.Asks (.relabel c.source c.target c.methods)
        (fun g => match g.relabel c.source c.target c.methods with
          | (found, g) => (.ok found, g))
  | hideEdge (hname : c.name = .str "hide_edge") :
      c.Asks (.hideEdge c.source c.target) (fun g => works (g.hideEdge c.source c.target))
  | showEdge (hname : c.name = .str "show_edge") :
      c.Asks (.showEdge c.source c.target) (fun g => works (g.showEdge c.source c.target))

variable {c : Command} {op : Operation} {edit : Graph → Except Fault Bool × Graph}

/-- The operation has the effect that the command asks for. -/
theorem Asks.after (h : c.Asks op edit) (s : Session) :
    op.after s = s.withGraph (edit s.project.graph).2 := by
  -- Whether the edit worked is not looked at by the operation.
  have hdiscard : ∀ f : Graph → Except Fault Bool × Graph,
      ((do let _ ← onGraph f : Action Unit) s).2 = s.withGraph (f s.project.graph).2 := by
    intro f
    rw [bind_run, onGraph]
    rcases f s.project.graph with ⟨e | done, g⟩
    · rfl
    · rfl
  cases h with
  | addNode hname hnode => exact hdiscard _
  | addEdge hname => exact hdiscard _
  | deleteEdge hname => exact hdiscard _
  | hideNode hname => rfl
  | showNode hname => rfl
  | deleteNode hname => rfl
  | resetColor hname => rfl
  | setColor hname => rfl
  | relabel hname hmethods => rfl
  | hideEdge hname => rfl
  | showEdge hname => rfl

def report (edit : Graph → Except Fault Bool × Graph) (message : Bool → String) : Action Value := do
  let done ← onGraph edit
  return answer done (message done)

/-- The report tells how the edit went, and the session has the edited graph. -/
theorem report_run (edit : Graph → Except Fault Bool × Graph) (message : Bool → String)
    (s : Session) :
    report edit message s =
      ((edit s.project.graph).1.map (fun done => answer done (message done)),
        s.withGraph (edit s.project.graph).2) := by
  rw [report, bind_run, onGraph]
  rcases edit s.project.graph with ⟨e | done, g⟩
  · rfl
  · rfl

/-- An edit without an answer of its own is reported as done. -/
theorem report_works {α : Type} (edit : Graph → Except Fault α × Graph) (message : String) :
    (do let _ ← onGraph edit; return answer true message : Action Value) =
      report (fun g => works (edit g)) (fun _ => message) := by
  funext s
  rw [report_run, bind_run, onGraph]
  rcases edit s.project.graph with ⟨e | x, g⟩
  · rfl
  · rfl

theorem onEdge_eq (edit : Graph → Except Fault Bool × Graph) (done verb : String) :
    c.onEdge edit done verb = report edit (fun worked =>
      if worked then "Edge " ++ c.edgeText ++ " " ++ done else "Failed to " ++
        verb ++ " edge") := by
  funext s
  rw [report_run, onEdge, bind_run, onGraph]
  rcases edit s.project.graph with ⟨e | worked, g⟩
  · rfl
  · cases worked <;> rfl

/-- A command on a node is unknown, or asks for an edit and reports it. -/
theorem runOnNode_cases (hnode : c.node.isTruthy = true) {name : String}
    (hname : c.name = .str name)
    (hknown : name ∈ nodeCommands) :
    c.runOnNode name = pure unknownCommand ∨
      ∃ op edit message, c.Asks op edit ∧ c.runOnNode name = report edit message := by
  simp only [nodeCommands, List.mem_cons, List.not_mem_nil, or_false] at hknown
  rcases hknown with rfl | rfl | rfl | rfl | rfl | rfl
  · exact Or.inr ⟨_, _, _, .hideNode hname, report_works _ _⟩
  · exact Or.inr ⟨_, _, _, .showNode hname, report_works _ _⟩
  · exact Or.inr ⟨_, _, _, .deleteNode hname, report_works _ _⟩
  · exact Or.inr ⟨_, _, _, .addNode hname hnode, report_works _ _⟩
  · exact Or.inr ⟨_, _, _, .resetColor hname, report_works _ _⟩
  · by_cases hcolor : c.color.isTruthy = true
    · exact Or.inr ⟨_, _, _, .setColor hname, (if_pos hcolor).trans (report_works _ _)⟩
    · exact Or.inl (if_neg hcolor)

/-- A command on an edge is unknown, or asks for an edit and reports it. -/
theorem runOnEdge_cases {name : String} (hname : c.name = .str name)
    (hknown : name ∈ edgeCommands) :
    c.runOnEdge name = pure unknownCommand ∨
      ∃ op edit message, c.Asks op edit ∧ c.runOnEdge name = report edit message := by
  simp only [edgeCommands, List.mem_cons, List.not_mem_nil, or_false] at hknown
  rcases hknown with rfl | rfl | rfl | rfl | rfl
  · exact Or.inr ⟨_, _, _, .addEdge hname, onEdge_eq _ _ _⟩
  · exact Or.inr ⟨_, _, _, .deleteEdge hname, onEdge_eq _ _ _⟩
  · by_cases hmethods : c.methods.isTruthy = true
    · exact Or.inr ⟨_, _, _, .relabel hname hmethods, (if_pos hmethods).trans (onEdge_eq _ _ _)⟩
    · exact Or.inl (if_neg hmethods)
  · exact Or.inr ⟨_, _, _, .hideEdge hname, report_works _ _⟩
  · exact Or.inr ⟨_, _, _, .showEdge hname, report_works _ _⟩

/-- Every command is refused as unknown, draws the graph again, or reports on an operation. -/
theorem run_cases (c : Command) (drawing : String) :
    c.run drawing = pure unknownCommand ∨
      (c.name = .str "regenerate" ∧ c.run drawing = regenerate drawing) ∨
      ∃ op edit message, c.Asks op edit ∧ c.run drawing = report edit message := by
  unfold run
  split
  · rename_i name hname
    split
    · rename_i hnode
      rcases Bool.and_eq_true_iff.1 hnode with ⟨hknown, hnode⟩
      have hcases := runOnNode_cases hnode hname (List.contains_iff_mem.1 hknown)
      exact hcases.imp_right Or.inr
    · split
      · rename_i hedge
        have hknown := (Bool.and_eq_true_iff.1 (Bool.and_eq_true_iff.1 hedge).1).1
        have hcases := runOnEdge_cases hname (List.contains_iff_mem.1 hknown)
        exact hcases.imp_right Or.inr
      · split
        · rename_i hdraw
          exact Or.inr (Or.inl ⟨by rw [hname, eq_of_beq hdraw], rfl⟩)
        · exact Or.inl rfl
  · exact Or.inl rfl

end Command

/-! ## Requests -/

def editRequest (body : String) : Request := ⟨"POST", "/api/edit", some body⟩

namespace Response

def Refused (r : Response) : Prop := r.status = 500 ∨ ∃ v, r.body? = some v ∧ Server.Fails v

def Accepted (r : Response) : Prop :=
  ∃ v, r.body? = some v ∧ v.field? "success" = some (.bool true)

/-- Whether the record of the response tells that the request was carried out, or that it was not.
-/
def tells (r : Response) (done : Bool) : Bool :=
  r.body?.any (fun v => (v.field? "success").any (fun w => match w with
    | .atom (.bool b) => b == done
    | _ => false))

/-- An answer that tells of a success or failure has the field for it. -/
theorem exists_of_tells {r : Response} {done : Bool} (h : r.tells done = true) :
    ∃ v, r.body? = some v ∧ v.field? "success" = some (.bool done) := by
  rcases (Option.any_eq_true _ _).1 h with ⟨v, hv, h⟩
  rcases (Option.any_eq_true _ _).1 h with ⟨w, hw, h⟩
  refine ⟨v, hv, ?_⟩
  match w with
  | .atom (.bool b) => rw [hw, eq_of_beq h]

/-- Whether there is a response that, with the session after it, passes a test. -/
def passes (run : Except Fault Response × Session) (p : Response → Session → Bool) : Bool :=
  match run with
  | (.ok r, t) => p r t
  | (.error _, _) => false

theorem exists_of_passes {run : Except Fault Response × Session} {p : Response → Session → Bool}
    (h : passes run p = true) : ∃ r t, run = (.ok r, t) ∧ p r t = true := by
  rcases run with ⟨e | r, t⟩
  · cases h
  · exact ⟨r, t, rfl, h⟩

end Response

namespace Server

/-- A request to edit is answered if its body can be read. -/
theorem respond_editRequest_eq (server : Server) (body drawing : String) :
    server.respond (editRequest body) drawing =
      match Value.ofJson? body with
      | some data => respondWith (server.answerPost "/api/edit" drawing data)
      | none => pure (Response.failed 500) :=
  server.respond_post (by decide) (by decide) (by decide) (some body) drawing

/-- A body with fields is answered as the server answers its fields. -/
theorem respond_editRequest (server : Server) {body : String} {fields : List (String × Value)}
    (hbody : Value.ofJson? body = some (.obj fields)) (drawing : String) :
    server.respond (editRequest body) drawing =
      respondWith (if server.hasProject then (Command.ofFields fields).run drawing
        else pure unknownCommand) := by
  have hpost : server.answerPost "/api/edit" drawing (.obj fields) =
      if server.hasProject then (Command.ofFields fields).run drawing else pure unknownCommand := by
    cases hproject : server.hasProject with
    | true => simp [answerPost, hproject, fieldsOf, orFail]
    | false => simp [answerPost, hproject]
  rw [respond_editRequest_eq, hbody, ← hpost]

end Server

/-! ## Refused requests -/

namespace Command

/-- What a request that is refused leaves behind. -/
inductive Dismissed (c : Command) (s t : Session) : Prop where
  /-- Everything is as it was. -/
  | untouched (hsame : t = s)
  /-- The edge to delete is neither a call nor an added edge. It is no longer listed as hidden. -/
  | shown (hname : c.name = .str "delete_edge") (key : Atom × Atom)
      (hkey : Graph.edgeKey c.source c.target = .ok key)
      (hcall : s.project.graph.callEdge? c.source c.target = none)
      (hcustom : s.project.graph.customEdge? c.source c.target = none)
      (hrest : t = s.withGraph
        { s.project.graph with hiddenEdges := s.project.graph.hiddenEdges.erase key })
  /-- The labels of the edge to add cannot be listed. Only added edges can be others. -/
  | halfAdded (hname : c.name = .str "add_edge") (hmethods : c.methods.isTruthy = true) (e : Fault)
      (hlabels : c.methods.elements = .error e) (edges : Table Node (Targets Node))
      (hrest : t = s.withGraph { s.project.graph with customEdges := edges })

/-- A graph that is edited as a whole or not at all stays the same if this does not work. -/
theorem works_allOrNothing_refused {g : Graph} {r : Except Fault Graph}
    (h : (works (g.allOrNothing r)).1 ≠ .ok true) : (works (g.allOrNothing r)).2 = g := by
  apply Graph.allOrNothing_refused
  intro hdone
  rw [works, hdone] at h
  exact h rfl

variable {c : Command} {op : Operation} {edit : Graph → Except Fault Bool × Graph} {s : Session}

theorem Dismissed.of_graph_eq {g : Graph} (h : g = s.project.graph) :
    c.Dismissed s (s.withGraph g) :=
  .untouched (by rw [h, Session.withGraph_self])

/-- An operation that did not work leaves behind what a refused request may leave. -/
theorem Asks.dismissed (h : c.Asks op edit) (hrefused : (edit s.project.graph).1 ≠ .ok true) :
    c.Dismissed s (s.withGraph (edit s.project.graph).2) := by
  cases h with
  | hideNode hname => exact .of_graph_eq (works_allOrNothing_refused hrefused)
  | showNode hname => exact .of_graph_eq (works_allOrNothing_refused hrefused)
  | deleteNode hname => exact .of_graph_eq (works_allOrNothing_refused hrefused)
  | resetColor hname => exact .of_graph_eq (works_allOrNothing_refused hrefused)
  | setColor hname => exact .of_graph_eq (works_allOrNothing_refused hrefused)
  | hideEdge hname => exact .of_graph_eq (works_allOrNothing_refused hrefused)
  | showEdge hname => exact .of_graph_eq (works_allOrNothing_refused hrefused)
  | addNode hname hnode =>
    refine .of_graph_eq (Graph.addNode_refused (fun hdone => hrefused ?_))
    exact congrArg (Except.map (fun _ => true)) hdone
  | relabel hname hmethods =>
    refine .of_graph_eq (Graph.relabel_refused (fun hdone => hrefused ?_))
    exact congrArg Except.ok hdone
  | deleteEdge hname =>
    rcases Graph.deleteEdge_refused hrefused with hsame | ⟨key, hkey, hcall, hcustom, hrest⟩
    · exact .of_graph_eq hsame
    · exact .shown hname key hkey hcall hcustom (by rw [hrest])
  | addEdge hname =>
    rcases Graph.addEdge_refused hrefused with hsame | ⟨e, edges, htruthy, hlabels, hrest⟩
    · exact .of_graph_eq hsame
    · -- Without labels an empty list is taken, which can be listed.
      by_cases hmethods : c.methods.isTruthy = true
      · rw [orElse, if_pos hmethods] at hlabels
        exact .halfAdded hname hmethods e hlabels edges (by rw [hrest])
      · rw [orElse, if_neg hmethods] at htruthy
        cases htruthy

/-- What is done is not refused. -/
theorem not_refused_of_done {message : String} : ¬ (Response.ok (answer true message)).Refused := by
  rintro (hstatus | ⟨v, hv, hfails⟩)
  · cases hstatus
  · cases hv
    cases hfails

end Command

/-- A request to edit the graph is always answered. When it is refused, the session is as it was;
only deleting an edge that is not there makes a hidden edge shown, and only adding an edge with
labels that cannot be listed may change the added edges. -/
theorem refused_edit_leaves (server : Server) {body : String} {fields : List (String × Value)}
    (hbody : Value.ofJson? body = some (.obj fields))
    (hcommand : (Command.ofFields fields).name ≠ .str "regenerate")
    (drawing : String) (s : Session) :
    ∃ r t, server.respond (editRequest body) drawing s = (.ok r, t) ∧
      (r.Refused → (Command.ofFields fields).Dismissed s t) := by
  rw [server.respond_editRequest hbody, Server.respondWith_run]
  refine ⟨_, _, rfl, ?_⟩
  intro hrefused
  by_cases hproject : server.hasProject = true
  · rw [if_pos hproject] at hrefused ⊢
    rcases (Command.ofFields fields).run_cases drawing with
      hunknown | ⟨hname, -⟩ | ⟨op, edit, message, hasks, hrun⟩
    · rw [hunknown]
      exact .untouched rfl
    · exact absurd hname hcommand
    · rw [hrun, Command.report_run] at hrefused ⊢
      apply hasks.dismissed
      -- An operation that worked is not answered with a failure.
      intro hdone
      rw [hdone] at hrefused
      exact Command.not_refused_of_done hrefused
  · rw [if_neg hproject]
    exact .untouched rfl

/-! ## An edge that is not there -/

theorem exists_fields_of_test {body : String} {p : List (String × Value) → Bool}
    (h : (Value.ofJson? body).any (fun v => (Server.fieldsOf v).toOption.any p) = true) :
    ∃ fields, Value.ofJson? body = some (.obj fields) ∧ p fields = true := by
  rcases (Option.any_eq_true _ _).1 h with ⟨v, hv, htest⟩
  rcases exists_of_toOption_any htest with ⟨fields, hfields, hp⟩
  cases v with
  | atom a => cases hfields
  | list items => cases hfields
  | obj record =>
    cases hfields
    exact ⟨fields, hv, hp⟩

def deletingBody : String :=
  "\x7b\"command\": \"delete_edge\", \"source\": \"A\", \"target\": \"B\"\x7d"

def editor : Server := ⟨.withoutPages, true, none, Server.firstPort⟩

/-- There are no files, and the edge from `A` to `B` is hidden. -/
def hidingSession : Session :=
  (Operation.hideEdge (.str "A") (.str "B")).after (Session.ofDisk default)

theorem deletingBody_fields : ∃ fields, Value.ofJson? deletingBody = some (.obj fields) ∧
    (Command.ofFields fields).name = .str "delete_edge" := by
  have htest : (Value.ofJson? deletingBody).any (fun v => (Server.fieldsOf v).toOption.any
      (fun fields => (Command.ofFields fields).name.isText "delete_edge")) = true := by
    decide +kernel
  rcases exists_fields_of_test htest with ⟨fields, hfields, hname⟩
  exact ⟨fields, hfields, Value.eq_str_of_isText hname⟩

/-- The request to delete the edge is refused, and it is no longer hidden. -/
theorem deletingBody_respond :
    ∃ r t, editor.respond (editRequest deletingBody) "g.dot" hidingSession = (.ok r, t) ∧
      r.Refused ∧ t.project.graph.hiddenEdges.contains (.str "A", .str "B") = false := by
  have htest : Response.passes (editor.respond (editRequest deletingBody) "g.dot" hidingSession)
      (fun r t => r.tells false && !t.project.graph.hiddenEdges.contains (.str "A", .str "B")) =
        true := by
    decide +kernel
  rcases Response.exists_of_passes htest with ⟨r, t, hrun, htest⟩
  rcases Bool.and_eq_true_iff.1 htest with ⟨hfails, hshown⟩
  exact ⟨r, t, hrun, Or.inr (Response.exists_of_tells hfails), by simpa using hshown⟩

/-- What is left behind by the request to delete an edge that is not there. -/
theorem deleting_missing_edge :
    ∃ fields r t, Value.ofJson? deletingBody = some (.obj fields) ∧
      editor.respond (editRequest deletingBody) "g.dot" hidingSession = (.ok r, t) ∧ r.Refused ∧
      (Command.ofFields fields).Dismissed hidingSession t := by
  rcases deletingBody_fields with ⟨fields, hfields, hname⟩
  rcases deletingBody_respond with ⟨r, t, hrun, hrefused, -⟩
  have hother : (Command.ofFields fields).name ≠ .str "regenerate" := by simp [hname, Value.str]
  rcases refused_edit_leaves editor hfields hother "g.dot" hidingSession with
    ⟨r', t', hrun', hleaves⟩
  cases hrun.symm.trans hrun'
  exact ⟨fields, r, t, hfields, hrun, hrefused, hleaves hrefused⟩

/-- A refused request can change which edges are hidden. -/
theorem refused_delete_shows_edge :
    ∃ fields r t, Value.ofJson? deletingBody = some (.obj fields) ∧
      (Command.ofFields fields).name = .str "delete_edge" ∧
      editor.respond (editRequest deletingBody) "g.dot" hidingSession = (.ok r, t) ∧ r.Refused ∧
      hidingSession.project.graph.hiddenEdges.contains (.str "A", .str "B") = true ∧
      t.project.graph.hiddenEdges.contains (.str "A", .str "B") = false := by
  rcases deletingBody_fields with ⟨fields, hfields, hname⟩
  rcases deletingBody_respond with ⟨r, t, hrun, hrefused, hshown⟩
  exact ⟨fields, r, t, hfields, hname, hrun, hrefused, by decide, hshown⟩

end JavaDeps
