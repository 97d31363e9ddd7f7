import JavaDeps.Session

/-!
# Running operations

What the operations of a session do when they are run, and a way to reason about operations that
succeed.

The file defines:
- the equations `..._run` of the basic operations;
- `Leads`, the statement that an operation succeeds with a given outcome, and its rules for
  sequences and loops;
- `Tells`, the statement that an operation succeeds with a given answer and only reports;
- `Preserves`, the statement that an operation leaves a part of the session alone, whether it
  succeeds or not, and its rules, and `Session.basis`, the part that look-ups leave alone;
- `Answers`, the statement that an operation gives an answer as described whenever it succeeds, and
  `Ensures`, which says so of one session and describes the session afterwards as well;
- `Maintains`, the statement that an operation keeps something true of the graph, whether it
  succeeds or not, and its rules;
- `Succeeds`, the statement that an operation never fails, and `Undone`, the statement that the
  graph is as before when it fails, and their rules.
-/

namespace JavaDeps

/-! ## Equations -/

theorem pure_run {α : Type} (x : α) (s : Session) : (pure x : Action α) s = (.ok x, s) := rfl

/-- The second operation starts where the first one ends, if that succeeds. -/
theorem bind_run {α β : Type} (a : Action α) (f : α → Action β) (s : Session) :
    (a >>= f) s = match a s with
      | (.ok x, t) => f x t
      | (.error e, t) => (.error e, t) := by
  show (ExceptT.bind a f) s = _
  rcases h : a s with ⟨e | x, t⟩
  · simp [ExceptT.bind, ExceptT.mk, ExceptT.bindCont, bind, StateT.bind, h]
    rfl
  · simp [ExceptT.bind, ExceptT.mk, ExceptT.bindCont, bind, StateT.bind, h]

theorem get_bind_run {β : Type} (f : Session → Action β) (s : Session) :
    ((get : Action Session) >>= f) s = f s s := rfl

@[simp] theorem Session.report_project (s : Session) (text : String) :
    (s.report text).project = s.project := rfl

@[simp] theorem Session.report_disk (s : Session) (text : String) :
    (s.report text).disk = s.disk := rfl

theorem say_run (text : String) (s : Session) : say text s = (.ok (), s.report text) := rfl

theorem theProject_run (s : Session) : theProject s = (.ok s.project, s) := rfl

theorem theGraph_run (s : Session) : theGraph s = (.ok s.project.graph, s) := rfl

theorem modifyProject_run (f : Project → Project) (s : Session) :
    modifyProject f s = (.ok (), { s with project := f s.project }) := rfl

theorem modifyGraph_run (f : Graph → Graph) (s : Session) :
    modifyGraph f s =
      (.ok (), { s with project := { s.project with graph := f s.project.graph } }) := rfl

theorem projectFiles_run (s : Session) :
    projectFiles s = (.ok (s.disk.javaFiles s.project.graph.root), s) := rfl

theorem sourceText?_run (file : SourcePath) (s : Session) :
    sourceText? file s = (.ok (s.disk.text? file), s) := rfl

/-- An attempt succeeds, with the outcome of the operation as its answer. -/
theorem attempt_run {α : Type} (a : Action α) (s : Session) :
    attempt a s = (.ok (a s).1, (a s).2) := rfl

theorem orFail_ok_run {α : Type} (x : α) (s : Session) : orFail (.ok x) s = (.ok x, s) := rfl

/-- Tests that the answer and the session afterwards pass show that the operation succeeds. -/
theorem exists_of_run {α : Type} {a : Action α} {s : Session} {p : α → Bool} {q : Session → Bool}
    (h : ((a s).1.toOption.any p && q (a s).2) = true) :
    ∃ x t, a s = (.ok x, t) ∧ p x = true ∧ q t = true := by
  rcases hrun : a s with ⟨e | x, t⟩
  · rw [hrun] at h
    cases h
  · rw [hrun] at h
    exact ⟨x, t, rfl, Bool.and_eq_true_iff.1 h⟩

/-! ## Operations that succeed -/

/-- The operation succeeds from the session, with an answer and a session as described. -/
def Leads {α : Type} (a : Action α) (s : Session) (Q : α → Session → Prop) : Prop :=
  ∃ x t, a s = (.ok x, t) ∧ Q x t

namespace Leads

variable {α β : Type} {s : Session}

theorem of_run {a : Action α} {Q : α → Session → Prop} {x : α} {t : Session}
    (h : a s = (.ok x, t)) (hQ : Q x t) : Leads a s Q :=
  ⟨x, t, h, hQ⟩

/-- Operations one after the other lead where the second one leads. -/
theorem bind {a : Action α} {f : α → Action β} {Q : β → Session → Prop}
    (h : Leads a s (fun x t => Leads (f x) t Q)) : Leads (a >>= f) s Q := by
  rcases h with ⟨x, t, hx, y, u, hy, hQ⟩
  refine ⟨y, u, ?_, hQ⟩
  rw [bind_run, hx]
  exact hy

/-- What is described of an answer may be weakened. -/
theorem weaken {a : Action α} {P Q : α → Session → Prop} (h : Leads a s P)
    (hPQ : ∀ x t, P x t → Q x t) : Leads a s Q := by
  rcases h with ⟨x, t, hx, hP⟩
  exact ⟨x, t, hx, hPQ x t hP⟩

/-- Where every round of a loop adds its element to what is done, the loop adds all of them. -/
theorem forM_done {I : List α → Session → Prop} {f : α → Action Unit} {xs : List α}
    (done : List α)
    (hf : ∀ x ∈ xs, ∀ done t, I done t → Leads (f x) t (fun _ u => I (done ++ [x]) u))
    (hs : I done s) : Leads (xs.forM f) s (fun _ t => I (done ++ xs) t) := by
  induction xs generalizing s done with
  | nil => exact of_run (pure_run () s) (by rwa [List.append_nil])
  | cons x rest ih =>
    have hhead : Leads (f x) s (fun _ t => I (done ++ [x]) t) := hf x (List.mem_cons_self) done s hs
    refine bind (hhead.weaken (fun _ t ht => ?_))
    rw [List.append_cons]
    exact ih _ (fun y hy => hf y (List.mem_cons_of_mem x hy)) ht

/-- What every round of a loop preserves, the loop preserves. -/
theorem forM {I : Session → Prop} {f : α → Action Unit} {xs : List α}
    (hf : ∀ x ∈ xs, ∀ t, I t → Leads (f x) t (fun _ u => I u)) (hs : I s) :
    Leads (xs.forM f) s (fun _ t => I t) :=
  forM_done (I := fun _ => I) [] (fun x hx _ => hf x hx) hs

end Leads

/-! ## Operations that only report -/

/-- The operation succeeds with this answer, and changes nothing but the report. -/
def Tells {α : Type} (a : Action α) (s : Session) (x : α) : Prop :=
  ∃ log, a s = (.ok x, { s with log := log })

namespace Tells

variable {α β : Type} {s : Session} {a : Action α} {f : α → Action β} {x : α} {y : β}

theorem pure (x : α) : Tells (Pure.pure x) s x := ⟨s.log, rfl⟩

theorem theProject : Tells JavaDeps.theProject s s.project := ⟨s.log, rfl⟩

theorem theGraph : Tells JavaDeps.theGraph s s.project.graph := ⟨s.log, rfl⟩

theorem orFail {r : Except Fault α} (h : r = .ok x) : Tells (JavaDeps.orFail r) s x := by
  subst h
  exact ⟨s.log, rfl⟩

/-- Two operations that only report something only report something together. -/
theorem bind (h : Tells a s x) (hf : ∀ log, Tells (f x) { s with log := log } y) :
    Tells (a >>= f) s y := by
  rcases h with ⟨log, hrun⟩
  rcases hf log with ⟨log', hrun'⟩
  refine ⟨log', ?_⟩
  rw [bind_run, hrun]
  exact hrun'

theorem say (text : String) : Tells (JavaDeps.say text) s () := ⟨_, say_run text s⟩

/-- Several lines are only reported. -/
theorem sayAll (texts : List String) : Tells (JavaDeps.sayAll texts) s () := by
  induction texts generalizing s with
  | nil => exact pure ()
  | cons text rest ih => exact bind (say text) (fun _ => ih)

/-- An attempt of an operation that only reports something does no more. -/
theorem attempt (h : Tells a s x) : Tells (JavaDeps.attempt a) s (.ok x) := by
  rcases h with ⟨log, hrun⟩
  exact ⟨log, by rw [attempt_run, hrun]⟩

end Tells

/-! ## Operations that leave something alone -/

/-- Whether it succeeds or fails, the operation leaves the given part of the session as it was. -/
def Preserves {α β : Type} (view : Session → β) (a : Action α) : Prop := ∀ s, view (a s).2 = view s

namespace Preserves

variable {α β γ : Type} {view : Session → γ}

theorem pure (x : α) : Preserves view (pure x : Action α) := fun _ => rfl

theorem throw (e : Fault) : Preserves view (throw e : Action α) := fun _ => rfl

theorem orFail (r : Except Fault α) : Preserves view (orFail r) := by
  cases r with
  | ok x => exact pure x
  | error e => exact throw e

/-- Two operations that preserve something preserve it together. -/
theorem bind {a : Action α} {f : α → Action β} (ha : Preserves view a)
    (hf : ∀ x, Preserves view (f x)) : Preserves view (a >>= f) := by
  intro s
  have hs := ha s
  rw [bind_run]
  rcases h : a s with ⟨e | x, t⟩
  · simpa [h] using hs
  · rw [h] at hs
    exact (hf x t).trans hs

theorem attempt {a : Action α} (ha : Preserves view a) : Preserves view (attempt a) := ha

/-- Operations for all elements preserve what each of them preserves. -/
theorem forM {f : α → Action Unit} (hf : ∀ x, Preserves view (f x)) (xs : List α) :
    Preserves view (xs.forM f) := by
  induction xs with
  | nil => exact pure ()
  | cons x rest ih => exact bind (hf x) (fun _ => ih)

theorem get_bind {f : Session → Action β} (hf : ∀ s, Preserves view (f s)) :
    Preserves view ((get : Action Session) >>= f) :=
  fun s => hf s s

theorem theProject_bind {f : Project → Action β} (hf : ∀ p, Preserves view (f p)) :
    Preserves view (theProject >>= f) :=
  fun s => hf s.project s

theorem theGraph_bind {f : Graph → Action β} (hf : ∀ g, Preserves view (f g)) :
    Preserves view (theGraph >>= f) :=
  fun s => hf s.project.graph s

end Preserves

/-- An attempt that itself reports nothing answers with its outcome. -/
theorem Tells.attempt_bind {α β : Type} {s : Session} {a : Action α}
    {f : Except Fault α → Action β} (ha : Preserves id a)
    (hf : ∀ r log, ∃ y, Tells (f r) { s with log := log } y) :
    ∃ y, Tells (JavaDeps.attempt a >>= f) s y := by
  have hsame : (a s).2 = s := ha s
  rcases hf (a s).1 s.log with ⟨y, log, hrun⟩
  refine ⟨y, log, ?_⟩
  rw [bind_run, attempt_run, hsame]
  exact hrun

/-- The graph, and the files of the interfaces. Operations that only look things up leave both
alone. -/
def Session.basis (s : Session) : Graph × Table String SourcePath :=
  (s.project.graph, s.project.facts.interfaces)

/-- What leaves the basis as it was leaves the graph as it was. -/
theorem Preserves.graph {α : Type} {a : Action α} (h : Preserves Session.basis a) :
    Preserves (fun s => s.project.graph) a :=
  fun s => congrArg Prod.fst (h s)

theorem Preserves.interfaces {α : Type} {a : Action α} (h : Preserves Session.basis a) :
    Preserves (fun s => s.project.facts.interfaces) a :=
  fun s => congrArg Prod.snd (h s)

/-! ## Answers of operations -/

/-- Whenever the operation succeeds, its answer is as described. -/
def Answers {α : Type} (a : Action α) (Q : α → Prop) : Prop := ∀ s x t, a s = (.ok x, t) → Q x

namespace Answers

variable {α β : Type}

theorem pure {Q : α → Prop} {x : α} (h : Q x) : Answers (pure x) Q := by
  intro s y t hrun
  cases hrun
  exact h

/-- The answer of two operations is that of the second one. -/
theorem bind {a : Action α} {f : α → Action β} {Q : β → Prop} (hf : ∀ x, Answers (f x) Q) :
    Answers (a >>= f) Q := by
  intro s y u hrun
  rw [bind_run] at hrun
  rcases h : a s with ⟨e | x, t⟩
  · rw [h] at hrun
    cases hrun
  · rw [h] at hrun
    exact hf x t y u hrun

end Answers

/-- Should the operation succeed from the session, its answer and the session afterwards are as
described. -/
def Ensures {α : Type} (a : Action α) (s : Session) (Q : α → Session → Prop) : Prop :=
  ∀ x t, a s = (.ok x, t) → Q x t

namespace Ensures

variable {α β : Type} {s : Session} {Q : α → Session → Prop}

theorem of_run {a : Action α} {x : α} {t : Session} (h : a s = (.ok x, t)) (hQ : Q x t) :
    Ensures a s Q := by
  intro y u hrun
  cases h.symm.trans hrun
  exact hQ

theorem throw (e : Fault) : Ensures (throw e) s Q := by
  intro x t hrun
  cases hrun

theorem orFail {r : Except Fault α} (h : ∀ x, r = .ok x → Q x s) : Ensures (orFail r) s Q := by
  cases r with
  | ok x => exact of_run (orFail_ok_run x s) (h x rfl)
  | error e => exact throw e

/-- If both operations succeed, the second one ensures what is described. -/
theorem bind {a : Action α} {f : α → Action β} {R : β → Session → Prop}
    (h : Ensures a s (fun x t => Ensures (f x) t R)) : Ensures (a >>= f) s R := by
  intro y u hrun
  rw [bind_run] at hrun
  rcases ha : a s with ⟨e | x, t⟩
  · rw [ha] at hrun
    cases hrun
  · rw [ha] at hrun
    exact h x t ha y u hrun

theorem weaken {a : Action α} {P : α → Session → Prop} (h : Ensures a s P)
    (hPQ : ∀ x t, P x t → Q x t) : Ensures a s Q :=
  fun x t hrun => hPQ x t (h x t hrun)

/-- After an operation of which nothing is known. -/
theorem after {a : Action α} {f : α → Action β} {R : β → Session → Prop}
    (h : ∀ x t, Ensures (f x) t R) : Ensures (a >>= f) s R :=
  bind (fun x t _ => h x t)

end Ensures

/-- An operation that is tried. -/
theorem attempt_leads {α γ : Type} (view : Session → γ) {a : Action α} {Q : α → Prop}
    (hview : Preserves view a) (hanswers : Answers a Q) (s : Session) :
    Leads (attempt a) s (fun r t => view t = view s ∧ ∀ x, r = .ok x → Q x) :=
  Leads.of_run (attempt_run a s) ⟨hview s, fun x hx => hanswers s x (a s).2 (Prod.ext hx rfl)⟩

/-! ## Operations that keep something true -/

/-- Whether it succeeds or fails, the operation keeps something true of the graph; when it succeeds,
its answer is as described. -/
def Maintains {α : Type} (I : Graph → Prop) (a : Action α) (Q : α → Prop) : Prop :=
  ∀ s, I s.project.graph → I (a s).2.project.graph ∧ ∀ x, (a s).1 = .ok x → Q x

namespace Maintains

variable {α β : Type} {I : Graph → Prop} {Q : α → Prop} {R : β → Prop}

theorem pure {x : α} (h : Q x) : Maintains I (pure x) Q := by
  refine fun s hs => ⟨hs, fun y hy => ?_⟩
  cases hy
  exact h

theorem orFail {r : Except Fault α} (h : ∀ x, r = .ok x → Q x) : Maintains I (orFail r) Q := by
  cases r with
  | ok x => exact pure (h x rfl)
  | error e => exact fun s hs => ⟨hs, fun x hx => by cases hx⟩

/-- Two operations that maintain something maintain it together. -/
theorem bind {a : Action α} {f : α → Action β} (ha : Maintains I a Q)
    (hf : ∀ x, Q x → Maintains I (f x) R) : Maintains I (a >>= f) R := by
  intro s hs
  rcases ha s hs with ⟨hI, hQ⟩
  rw [bind_run]
  rcases h : a s with ⟨e | x, t⟩
  · rw [h] at hI
    exact ⟨hI, fun x hx => by cases hx⟩
  · rw [h] at hI hQ
    exact hf x (hQ x rfl) t hI

/-- An operation that leaves the graph alone keeps everything true of it. -/
theorem of_preserves {a : Action α} (h : Preserves Session.basis a) :
    Maintains I a (fun _ => True) := by
  intro s hs
  have hgraph : (a s).2.project.graph = s.project.graph := h.graph s
  exact ⟨hgraph ▸ hs, fun _ _ => trivial⟩

/-- After an operation that leaves the graph alone. -/
theorem after {a : Action α} {f : α → Action β} (ha : Preserves Session.basis a)
    (hf : ∀ x, Maintains I (f x) R) : Maintains I (a >>= f) R :=
  bind (of_preserves ha) (fun x _ => hf x)

theorem theGraph : Maintains I theGraph I := fun s hs =>
  ⟨hs, fun x hx => by rw [theGraph_run] at hx; cases hx; exact hs⟩

/-- A change of the graph maintains what holds afterwards. -/
theorem modifyGraph {f : Graph → Graph} (h : ∀ g, I g → I (f g)) :
    Maintains I (modifyGraph f) (fun _ => True) :=
  fun _ hs => ⟨h _ hs, fun _ _ => trivial⟩

theorem onGraph {f : Graph → Except Fault α × Graph} (h : ∀ g, I g → I (f g).2) :
    Maintains I (onGraph f) (fun _ => True) :=
  fun _ hs => ⟨h _ hs, fun _ _ => trivial⟩

end Maintains

/-! ## Operations that fail -/

/-- The operation succeeds from every session. -/
def Succeeds {α : Type} (a : Action α) : Prop := ∀ s, ∃ x t, a s = (.ok x, t)

namespace Succeeds

variable {α β : Type}

theorem pure (x : α) : Succeeds (pure x : Action α) := fun s => ⟨x, s, rfl⟩

theorem say (text : String) : Succeeds (say text) := fun s => ⟨(), _, say_run text s⟩

/-- An attempt never fails. -/
theorem attempt (a : Action α) : Succeeds (attempt a) := fun s => ⟨_, _, attempt_run a s⟩

theorem modifyGraph (f : Graph → Graph) : Succeeds (modifyGraph f) :=
  fun s => ⟨(), _, modifyGraph_run f s⟩

theorem theProject : Succeeds theProject := fun s => ⟨_, s, theProject_run s⟩

/-- Two operations that never fail do not fail together. -/
theorem bind {a : Action α} {f : α → Action β} (ha : Succeeds a) (hf : ∀ x, Succeeds (f x)) :
    Succeeds (a >>= f) := by
  intro s
  rcases ha s with ⟨x, t, hx⟩
  rcases hf x t with ⟨y, u, hy⟩
  refine ⟨y, u, ?_⟩
  rw [bind_run, hx]
  exact hy

/-- An operation that never fails and leaves something alone. -/
theorem leads {γ : Type} {view : Session → γ} {a : Action α} (ha : Succeeds a)
    (hview : Preserves view a) (s : Session) : Leads a s (fun _ t => view t = view s) := by
  rcases ha s with ⟨x, t, hx⟩
  have hsame := hview s
  rw [hx] at hsame
  exact ⟨x, t, hx, hsame⟩

end Succeeds

/-- When the operation fails from a graph as described, it has left the graph as it was. -/
def Undone {α : Type} (I : Graph → Prop) (a : Action α) : Prop :=
  ∀ s, I s.project.graph → ∀ e t, a s = (.error e, t) → t.project.graph = s.project.graph

namespace Undone

variable {α β : Type} {I : Graph → Prop}

/-- An operation that leaves the basis as it was has nothing to undo. -/
theorem of_preserves {a : Action α} (h : Preserves Session.basis a) : Undone I a := by
  intro s _ e t hrun
  have hgraph := h.graph s
  rw [hrun] at hgraph
  exact hgraph

/-- An operation that never fails has nothing to undo. -/
theorem of_succeeds {a : Action α} (h : Succeeds a) : Undone I a := by
  intro s _ e t hrun
  rcases h s with ⟨x, u, hx⟩
  rw [hx] at hrun
  cases hrun

/-- After an operation that leaves the graph alone. -/
theorem after {a : Action α} {f : α → Action β} (ha : Preserves Session.basis a)
    (hf : ∀ x, Undone I (f x)) : Undone I (a >>= f) := by
  intro s hs e u hrun
  have hgraph := ha.graph s
  rw [bind_run] at hrun
  rcases h : a s with ⟨e' | x, t⟩
  · rw [h] at hrun hgraph
    cases hrun
    exact hgraph
  · rw [h] at hrun hgraph
    have hgraph' : t.project.graph = s.project.graph := hgraph
    exact (hf x t (hgraph'.symm ▸ hs) e u hrun).trans hgraph'

/-- Before operations that succeed where it did. -/
theorem before {a : Action α} {f : α → Action β} (ha : Undone I a)
    (hf : ∀ s x t, I s.project.graph → a s = (.ok x, t) → ∃ y u, f x t = (.ok y, u)) :
    Undone I (a >>= f) := by
  intro s hs e u hrun
  rw [bind_run] at hrun
  rcases h : a s with ⟨e' | x, t⟩
  · rw [h] at hrun
    cases hrun
    exact ha s hs e u h
  · rw [h] at hrun
    rcases hf s x t hs h with ⟨y, v, hy⟩
    cases hy.symm.trans hrun

theorem orFail {r : Except Fault α} {f : α → Action β} (hf : ∀ x, r = .ok x → Undone I (f x)) :
    Undone I (orFail r >>= f) := by
  cases r with
  | ok x => exact hf x rfl
  | error e =>
    intro s _ e' t hrun
    cases hrun
    rfl

end Undone

end JavaDeps
