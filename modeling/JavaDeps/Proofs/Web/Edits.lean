import JavaDeps.Proofs.Metadata.Worded
import JavaDeps.Proofs.Reached
import JavaDeps.Proofs.Web.Commands

/-!
# Drawings after edits

Requests put labels on edges, and classes on added nodes, as they are sent. A list that mixes texts
and numbers is accepted, but the graph cannot be drawn with it. After any requests, the graph is
drawn exactly when all labels and classes that are shown are texts.
-/

namespace JavaDeps

/-! ## Requests one after the other -/

/-- Drawing again leaves the project as it was. -/
theorem Command.regenerate_preserves_project (drawing : String) :
    Preserves (fun s => s.project) (Command.regenerate drawing) :=
  Preserves.bind (generate_preserves_project drawing) (fun _ => Preserves.pure _)

namespace Server

/-- A request to edit leaves the project alone, or carries out the operation of its command. -/
theorem respond_editRequest_cases (server : Server) (body drawing : String) (s : Session) :
    (server.respond (editRequest body) drawing s).2.project = s.project ∨
      ∃ fields op edit, Value.ofJson? body = some (.obj fields) ∧
        (Command.ofFields fields).Asks op edit ∧
        (server.respond (editRequest body) drawing s).2 = op.after s := by
  -- What is no record leads to a failure before anything is done.
  have hother : ∀ data e, fieldsOf data = .error e → Value.ofJson? body = some data →
      (server.respond (editRequest body) drawing s).2.project = s.project := by
    intro data e hfields hbody
    have hanswer : Preserves (fun s => s.project) (server.answerPost "/api/edit" drawing data) := by
      simp only [answerPost, hfields, orFail]
      split
      · exact fun _ => rfl
      · split
        · exact fun _ => rfl
        · exact Preserves.pure _
    have hrespond : server.respond (editRequest body) drawing =
        respondWith (server.answerPost "/api/edit" drawing data) := by
      rw [respond_editRequest_eq, hbody]
    rw [hrespond, respondWith_run]
    exact hanswer s
  cases hbody : Value.ofJson? body with
  | none =>
    rw [respond_editRequest_eq, hbody]
    exact Or.inl rfl
  | some data =>
    cases data with
    | atom a => exact Or.inl (hother _ _ rfl hbody)
    | list items => exact Or.inl (hother _ _ rfl hbody)
    | obj fields =>
      rw [server.respond_editRequest hbody, respondWith_run]
      by_cases hproject : server.hasProject = true
      · rw [if_pos hproject]
        rcases (Command.ofFields fields).run_cases drawing with
          hunknown | ⟨-, hdraws⟩ | ⟨op, edit, message, hasks, hrun⟩
        · rw [hunknown]
          exact Or.inl rfl
        · rw [hdraws]
          exact Or.inl (Command.regenerate_preserves_project drawing s)
        · rw [hrun, Command.report_run]
          exact Or.inr ⟨fields, op, edit, rfl, hasks, (hasks.after s).symm⟩
      · rw [if_neg hproject]
        exact Or.inl rfl

/-- The session after requests to edit the graph, whether they are accepted or refused. -/
def afterEdits (server : Server) (drawing : String) (bodies : List String) (s : Session) :
    Session :=
  bodies.foldl (fun s body => (server.respond (editRequest body) drawing s).2) s

/-- After several requests the session is that after the first and then the others. -/
theorem afterEdits_cons (server : Server) (drawing body : String)
    (rest : List String) (s : Session) :
    server.afterEdits drawing (body :: rest) s =
      server.afterEdits drawing rest (server.respond (editRequest body) drawing s).2 := by
  unfold afterEdits
  rw [List.foldl_cons]

/-- Requests keep true of the project what the operations keep that they ask for. -/
theorem afterEdits_rule (server : Server) (drawing : String) {I : Project → Prop}
    {bodies : List String}
    (hstep : ∀ body ∈ bodies, ∀ fields op edit, Value.ofJson? body = some (.obj fields) →
      (Command.ofFields fields).Asks op edit → ∀ s : Session, I s.project → I (op.after s).project)
    {s : Session} (hs : I s.project) : I (server.afterEdits drawing bodies s).project := by
  induction bodies generalizing s with
  | nil => exact hs
  | cons body rest ih =>
    rw [afterEdits_cons]
    refine ih (fun b hb => hstep b (List.mem_cons_of_mem _ hb)) ?_
    rcases server.respond_editRequest_cases body drawing s with
      hsame | ⟨fields, op, edit, hbody, hasks, hafter⟩
    · rw [hsame]
      exact hs
    · rw [hafter]
      exact hstep body List.mem_cons_self fields op edit hbody hasks s hs

end Server

/-! ## What requests bring in -/

/-- The labels and the classes that a request gives consist of values as described. -/
def EditGives (labels classes : Value → Prop) (body : String) : Prop :=
  ∀ fields, Value.ofJson? body = some (.obj fields) →
    ((Command.ofFields fields).methods.isTruthy = true →
      (Command.ofFields fields).methods.Consists labels) ∧
    ((Command.ofFields fields).classes.isTruthy = true →
      (Command.ofFields fields).classes.Consists classes)

namespace Command.Asks

variable {c : Command} {op : Operation} {edit : Graph → Except Fault Bool × Graph}
  {p : Value → Prop}

/-- Where nothing is given, an empty list is taken. -/
theorem consists_orElse {v : Value} (h : v.isTruthy = true → v.Consists p) :
    (orElse v (.list [])).Consists p := by
  unfold orElse
  split
  · rename_i hv
    exact h hv
  · exact Value.Consists.nil

/-- A command brings in the methods that it gives as labels. -/
theorem gives (h : c.Asks op edit) (hmethods : c.methods.isTruthy = true → c.methods.Consists p) :
    op.Gives p := by
  cases h with
  | addEdge hname => exact fun _ => consists_orElse hmethods
  | relabel hname htruthy => exact hmethods htruthy
  | _ => trivial

/-- A command brings in the classes that it gives. -/
theorem givesClasses (h : c.Asks op edit)
    (hclasses : c.classes.isTruthy = true → c.classes.Consists p) : op.GivesClasses p := by
  cases h with
  | addNode hname hnode => exact fun _ => consists_orElse hclasses
  | _ => trivial

end Command.Asks

namespace Server

variable {p q : Value → Prop} {bodies : List String} {s : Session}

/-- Requests keep what the labels consist of. -/
theorem afterEdits_labelsCarry (server : Server) (drawing : String) (hp : ∀ text, p (.str text))
    (hbodies : ∀ body ∈ bodies, EditGives p q body) (hs : s.project.graph.LabelsCarry p) :
    (server.afterEdits drawing bodies s).project.graph.LabelsCarry p := by
  refine server.afterEdits_rule drawing (I := fun r => r.graph.LabelsCarry p) ?_ hs
  intro body hbody fields op edit hfields hasks t ht
  exact (Operation.labelsCarry hp (hasks.gives (hbodies body hbody fields hfields).1) t ht).1

/-- Requests keep what the classes of added nodes consist of. -/
theorem afterEdits_classesCarry (server : Server) (drawing : String)
    (hbodies : ∀ body ∈ bodies, EditGives p q body) (hs : s.project.graph.ClassesCarry q) :
    (server.afterEdits drawing bodies s).project.graph.ClassesCarry q := by
  refine server.afterEdits_rule drawing (I := fun r => r.graph.ClassesCarry q) ?_ hs
  intro body hbody fields op edit hfields hasks t ht
  exact (Operation.classesCarry (hasks.givesClasses (hbodies body hbody fields hfields).2) t ht).1

/-- Requests to edit the graph choose no page functions. -/
theorem afterEdits_pages (server : Server) (drawing : String) (bodies : List String)
    (hs : s.project.pages.functions = []) :
    (server.afterEdits drawing bodies s).project.pages.functions = [] := by
  refine server.afterEdits_rule drawing (I := fun r => r.pages.functions = []) ?_ hs
  intro body _ fields op edit _ hasks t ht
  rw [hasks.after]
  exact ht

end Server

/-! ## Right after the analysis -/

/-- Nothing is added by hand, and no page functions are chosen. -/
structure Project.Untouched (p : Project) : Prop where
  customNodes : p.graph.customNodes = Table.empty
  pages : p.pages.functions = []

/-- The analysis adds nothing by hand. -/
theorem Project.Untouched.enter {p : Project} (h : p.Untouched) (f : Finding) :
    (p.enter f).2.Untouched := by
  have hgraph : ∀ {source target : SourcePath} {r : Except Fault Graph},
      (∀ g, r = .ok g → Graph.Gains source target p.graph g) → (p.withGraph r).2.Untouched := by
    intro source target r hgains
    cases r with
    | error e => exact h
    | ok g => exact ⟨(hgains g rfl).customNodes.trans h.customNodes, h.pages⟩
  cases f with
  | declares file name qualified =>
    unfold Project.enter declare
    dsimp only
    split
    · exact ⟨h.customNodes, h.pages⟩
    · exact ⟨h.customNodes, h.pages⟩
  | uses source target label => exact hgraph (fun g hg => Graph.addCall_gains hg)
  | usesOnce source target label => exact hgraph (fun g hg => Graph.addCallOnce_gains hg)
  | _ => exact ⟨h.customNodes, h.pages⟩

/-- After the analysis of a fresh project, all labels are texts and nothing is added by hand. -/
theorem openProject_analyze_untouched (depth : Depth) (root : String) (s : Session) :
    Leads (do openProject depth root; analyze) s (fun _ t =>
      t.project.graph.LabelsCarry Value.Textual ∧ t.project.Untouched) := by
  have habsorbs : Absorbs (SourcePath.ofText root)
      (fun p => p.Listable (SourcePath.ofText root) ∧ p.Untouched) :=
    ⟨fun hp => hp.1.inside.root_eq, fun hp => hp.1.inside.classes_in, fun hp => hp.1.interfaces,
      fun hp hf => ⟨hp.1.enter hf, hp.2.enter _⟩⟩
  rcases openProject_leads depth root s with ⟨_, u, hopen, -, hasStore, hproject⟩
  have hfresh : u.project.Listable (SourcePath.ofText root) ∧ u.project.Untouched := by
    rw [hproject]
    exact ⟨Project.Listable.fresh depth hasStore _, rfl, rfl⟩
  rcases openProject_analyze_starts depth root s with ⟨_, t, hrun, -⟩
  have hanalyze : (analyze u).2 = t := by
    have hboth : (do openProject depth root; analyze : Action Unit) s = analyze u := by
      rw [bind_run, hopen]
    rw [← hboth, hrun]
  have hkept := analyze_upholds habsorbs u hfresh
  rw [hanalyze] at hkept
  exact ⟨_, t, hrun, hkept.1.labels, hkept.2⟩

/-! ## Drawings and descriptions -/

namespace Graph

variable {g : Graph} {p q : Value → Prop}

theorem LabelsCarry.entry (h : g.LabelsCarry p) {source target : Node} {v : Value}
    (hentry : g.Entry source target v) : v.Consists p := by
  cases hentry with
  | call hrow hcell => exact h.calls _ hrow _ hcell
  | custom hrow hcell => exact h.custom _ hrow _ hcell

/-- A graph of texts is worded. -/
theorem Worded.of_carry (hlabels : g.LabelsCarry Value.Textual)
    (hclasses : g.ClassesCarry Value.Textual) : g.Worded :=
  ⟨fun _ _ _ hentry => hlabels.entry hentry, hclasses⟩

/-- A graph with single values as labels is simple. -/
theorem Simple.of_carry (hlabels : g.LabelsCarry Value.IsSingle) (hclasses : g.ClassesCarry q) :
    g.Simple :=
  ⟨fun _ _ _ hentry => hlabels.entry hentry,
    fun e he => (hclasses e he).imp (fun _ hitems => hitems.1)⟩

end Graph

/-- After the analysis of a fresh project and any requests to edit its graph, the project is drawn
exactly when all labels and classes that are shown are texts. This is so if all labels and classes
are given as texts. The graph is described, in whatever order its nodes are gone through, if all
labels are given as lists of single values, and classes as values that can be gone through. -/
theorem drawn_after_edits (depth : Depth) (root : String) (s : Session) :
    ∃ t, (do openProject depth root; analyze : Action Unit) s = (.ok (), t) ∧
      ∀ (server : Server) (drawing : String) (bodies : List String),
        ((∃ text, (server.afterEdits drawing bodies t).project.dotText = .ok text) ↔
          (server.afterEdits drawing bodies t).project.graph.Drawable) ∧
        ((∀ body ∈ bodies, EditGives Value.Textual Value.Textual body) →
          (server.afterEdits drawing bodies t).project.graph.Drawable) ∧
        ((∀ body ∈ bodies, EditGives Value.IsSingle (fun _ => True) body) →
          ∀ directory order, ∃ data,
            (server.afterEdits drawing bodies t).project.graph.describe directory order =
              .ok data) := by
  rcases openProject_analyze_untouched depth root s with ⟨_, t, hrun, hlabels, huntouched⟩
  have hclasses : ∀ q, t.project.graph.ClassesCarry q := by
    intro q e he
    rw [huntouched.customNodes] at he
    cases he
  refine ⟨t, hrun, fun server drawing bodies =>
    ⟨?_, fun hbodies => ?_, fun hbodies directory order => ?_⟩⟩
  · exact Project.exists_dotText_iff (server.afterEdits_pages drawing bodies huntouched.pages)
  · have hlabels' := server.afterEdits_labelsCarry drawing (fun text => ⟨text, rfl⟩) hbodies hlabels
    have hclasses' := server.afterEdits_classesCarry drawing hbodies (hclasses _)
    exact (Graph.Worded.of_carry hlabels' hclasses').drawable
  · have hsingle : t.project.graph.LabelsCarry Value.IsSingle :=
      hlabels.mono (fun item ⟨text, hitem⟩ => ⟨.str text, hitem⟩)
    have hlabels' := server.afterEdits_labelsCarry drawing (fun text => ⟨_, rfl⟩) hbodies hsingle
    have hclasses' := server.afterEdits_classesCarry drawing hbodies (hclasses _)
    have hsimple := Graph.Simple.of_carry hlabels' hclasses'
    rcases hsimple.fileInfos_ok order with ⟨files, hfiles⟩
    exact (hsimple.describe_ok hfiles directory).imp (fun _ hdata => hdata.1)

/-! ## Labels that are texts, and labels that are not -/

def wordedBody : String :=
  "\x7b\"command\": \"add_edge\", \"source\": \"A\", \"target\": \"B\", \"methods\": [\"run\"]\x7d"

def mixedBody : String :=
  "\x7b\"command\": \"add_edge\", \"source\": \"A\", \"target\": \"B\", " ++
    "\"methods\": [\"run\", 1]\x7d"

theorem wordedBody_gives : EditGives Value.Textual Value.Textual wordedBody := by
  have htest : (Value.ofJson? wordedBody).any (fun v => (Server.fieldsOf v).toOption.any
      (fun fields => (Command.ofFields fields).methods.texts.isOk &&
        !(Command.ofFields fields).classes.isTruthy)) = true := by
    decide +kernel
  rcases exists_fields_of_test htest with ⟨fields, hbody, htest⟩
  rcases Bool.and_eq_true_iff.1 htest with ⟨hmethods, hclasses⟩
  intro fields' hbody'
  cases hbody.symm.trans hbody'
  refine ⟨fun _ => ?_, fun htruthy => ?_⟩
  · cases htexts : (Command.ofFields fields).methods.texts with
    | error e =>
      rw [htexts] at hmethods
      cases hmethods
    | ok texts => exact Value.exists_texts_iff.1 ⟨texts, htexts⟩
  · rw [htruthy] at hclasses
    cases hclasses

/-- An edge with a text as its label is accepted, and the graph is drawn and described. -/
theorem worded_edit_drawn :
    ∃ t r u text data,
      (do openProject .plain "."; analyze : Action Unit) (Session.ofDisk pairFiles) = (.ok (), t) ∧
      editor.respond (editRequest wordedBody) "g.dot" t = (.ok r, u) ∧ r.Accepted ∧
      u.project.dotText = .ok text ∧ u.project.graph.metadata "/" = .ok data := by
  rcases drawn_after_edits .plain "." (Session.ofDisk pairFiles) with ⟨t, hrun, hedits⟩
  have ht : t =
      ((do openProject .plain "."; analyze : Action Unit) (Session.ofDisk pairFiles)).2 := by
    rw [hrun]
  have htest : Response.passes (editor.respond (editRequest wordedBody) "g.dot" t)
      (fun r _ => r.tells true) = true := by
    rw [ht]
    decide +kernel
  rcases Response.exists_of_passes htest with ⟨r, u, hrespond, haccepted⟩
  have hu : editor.afterEdits "g.dot" [wordedBody] t = u := by
    rw [Server.afterEdits_cons, hrespond]
    rfl
  rcases hedits editor "g.dot" [wordedBody] with ⟨hdrawn, hdrawable, hdescribed⟩
  have hworded : ∀ body ∈ [wordedBody], EditGives Value.Textual Value.Textual body :=
    fun body hbody => List.mem_singleton.1 hbody ▸ wordedBody_gives
  have hsingle : ∀ body ∈ [wordedBody], EditGives Value.IsSingle (fun _ => True) body := by
    intro body hbody fields hfields
    rcases hworded body hbody fields hfields with ⟨hmethods, hclasses⟩
    refine ⟨fun htruthy => ?_, fun htruthy => (hclasses htruthy).mono (fun _ _ => trivial)⟩
    exact Value.IsTexts.single (hmethods htruthy)
  rcases hdrawn.2 (hdrawable hworded) with ⟨text, htext⟩
  rcases hdescribed hsingle "/" _ with ⟨data, hdata⟩
  rw [hu] at htext hdata
  exact ⟨t, r, u, text, data, hrun, hrespond, Response.exists_of_tells haccepted, htext, hdata⟩

/-- An edge with a text and a number as its labels is accepted, and the graph is no longer drawn. -/
theorem accepted_edit_not_drawn :
    ∃ t r u,
      (do openProject .plain "."; analyze : Action Unit) (Session.ofDisk pairFiles) = (.ok (), t) ∧
      editor.respond (editRequest mixedBody) "g.dot" t = (.ok r, u) ∧ r.Accepted ∧
      ¬ ∃ text, u.project.dotText = .ok text := by
  rcases openProject_analyze_starts .plain "." (Session.ofDisk pairFiles) with ⟨⟨⟩, t, hrun, -⟩
  have ht : t =
      ((do openProject .plain "."; analyze : Action Unit) (Session.ofDisk pairFiles)).2 := by
    rw [hrun]
  have htest : Response.passes (editor.respond (editRequest mixedBody) "g.dot" t)
      (fun r u => r.tells true && !u.project.dotText.isOk) = true := by
    rw [ht]
    decide +kernel
  rcases Response.exists_of_passes htest with ⟨r, u, hrespond, htest⟩
  rcases Bool.and_eq_true_iff.1 htest with ⟨haccepted, hfails⟩
  refine ⟨t, r, u, hrun, hrespond, Response.exists_of_tells haccepted, ?_⟩
  rintro ⟨text, htext⟩
  rw [htext] at hfails
  cases hfails

end JavaDeps
