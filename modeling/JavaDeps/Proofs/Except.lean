import JavaDeps.Fault

/-!
# Computations that may fail

What holds of loops over computations that fail with a `Fault`: when every step succeeds, the loop
does, what every step keeps, the loop keeps, and the results of a loop are those of its steps.
-/

namespace JavaDeps

variable {α β : Type} {P : β → Prop}

/-- What follows a step is reached only if the step succeeds. -/
theorem bind_eq_ok {ε : Type} {x : Except ε α} {f : α → Except ε β} {b : β}
    (h : (x >>= f) = .ok b) : ∃ a, x = .ok a ∧ f a = .ok b := by
  cases x with
  | error e => cases h
  | ok a => exact ⟨a, rfl, h⟩

theorem exists_bind_eq_ok {ε : Type} {x : Except ε α} {f : α → Except ε β} {a : α} (hx : x = .ok a)
    (hf : ∃ b, f a = .ok b) : ∃ b, (x >>= f) = .ok b := by
  subst hx
  exact hf

/-- A loop succeeds with what holds after each of its rounds. -/
theorem foldlM_ok {f : β → α → Except Fault β} {xs : List α}
    (hf : ∀ x ∈ xs, ∀ b, P b → ∃ b', f b x = .ok b' ∧ P b') {b : β} (hb : P b) :
    ∃ b', xs.foldlM f b = .ok b' ∧ P b' := by
  induction xs generalizing b with
  | nil => exact ⟨b, rfl, hb⟩
  | cons x rest ih =>
    rcases hf x List.mem_cons_self b hb with ⟨b₁, hstep, hb₁⟩
    rcases ih (fun y hy => hf y (List.mem_cons_of_mem _ hy)) hb₁ with ⟨b', hrest, hb'⟩
    refine ⟨b', ?_, hb'⟩
    rw [List.foldlM_cons, hstep]
    exact hrest

/-- Results of a loop are as each of its rounds gives them. -/
theorem mapM_ok {f : α → Except Fault β} {xs : List α}
    (hf : ∀ x ∈ xs, ∃ y, f x = .ok y ∧ P y) : ∃ ys, xs.mapM f = .ok ys ∧ ∀ y ∈ ys, P y := by
  induction xs with
  | nil => exact ⟨[], rfl, by simp⟩
  | cons x rest ih =>
    rcases hf x List.mem_cons_self with ⟨y, hy, hP⟩
    rcases ih (fun z hz => hf z (List.mem_cons_of_mem _ hz)) with ⟨ys, hys, hall⟩
    refine ⟨y :: ys, ?_, by simpa using ⟨hP, hall⟩⟩
    rw [List.mapM_cons, hy, hys]
    rfl

theorem mapM_eq_ok {f : α → Except Fault β} {g : α → β} {xs : List α}
    (hf : ∀ x ∈ xs, f x = .ok (g x)) : xs.mapM f = .ok (xs.map g) := by
  induction xs with
  | nil => rfl
  | cons x rest ih =>
    rw [List.mapM_cons, hf x List.mem_cons_self, ih (fun y hy => hf y (List.mem_cons_of_mem _ hy))]
    rfl

/-- A loop that succeeds consists of a first round and a loop that succeed. -/
theorem mapM_cons_eq_ok {f : α → Except Fault β} {x : α} {rest : List α} {ys : List β}
    (h : (x :: rest).mapM f = .ok ys) :
    ∃ y others, f x = .ok y ∧ rest.mapM f = .ok others ∧ ys = y :: others := by
  rw [List.mapM_cons] at h
  rcases bind_eq_ok h with ⟨y, hy, h⟩
  rcases bind_eq_ok h with ⟨others, hothers, h⟩
  cases h
  exact ⟨y, others, hy, hothers, rfl⟩

/-- The results of a loop that succeeds are the results of its rounds. -/
theorem mem_mapM_iff {f : α → Except Fault β} {xs : List α} {ys : List β} (h : xs.mapM f = .ok ys)
    {y : β} : y ∈ ys ↔ ∃ x ∈ xs, f x = .ok y := by
  induction xs generalizing ys with
  | nil =>
    cases h
    simp
  | cons x rest ih =>
    rcases mapM_cons_eq_ok h with ⟨first, others, hfirst, hothers, rfl⟩
    simp [ih hothers, hfirst, eq_comm]

/-- A loop succeeds exactly when all its rounds do. -/
theorem exists_mapM_iff {f : α → Except Fault β} {xs : List α} :
    (∃ ys, xs.mapM f = .ok ys) ↔ ∀ x ∈ xs, ∃ y, f x = .ok y := by
  constructor
  · rintro ⟨ys, h⟩
    induction xs generalizing ys with
    | nil => simp
    | cons x rest ih =>
      rcases mapM_cons_eq_ok h with ⟨first, others, hfirst, hothers, -⟩
      intro z hz
      rcases List.mem_cons.1 hz with rfl | hz
      · exact ⟨first, hfirst⟩
      · exact ih others hothers z hz
  · intro h
    have hall : ∃ ys, xs.mapM f = .ok ys ∧ ∀ y ∈ ys, True :=
      mapM_ok (fun x hx => (h x hx).imp (fun _ hy => ⟨hy, trivial⟩))
    exact hall.imp (fun _ hys => hys.1)

/-- What every step keeps, a loop that succeeds keeps. -/
theorem foldlM_keeps {f : β → α → Except Fault β} {xs : List α}
    (hf : ∀ x ∈ xs, ∀ b b', P b → f b x = .ok b' → P b') {b b' : β} (hb : P b)
    (h : xs.foldlM f b = .ok b') : P b' := by
  induction xs generalizing b with
  | nil => cases h; exact hb
  | cons x rest ih =>
    rcases bind_eq_ok h with ⟨b₁, hstep, hrest⟩
    exact ih (fun y hy => hf y (List.mem_cons_of_mem _ hy))
      (hf x List.mem_cons_self b b₁ hb hstep) hrest

/-- A loop that takes its parts up to a limit. -/
theorem foldlM_take {limit : Nat} {f : List β → α → Except Fault (List β)} {part : α → List β}
    {xs : List α}
    (hf : ∀ x ∈ xs, ∀ done, f (done.take limit) x = .ok ((done ++ part x).take limit))
    (done : List β) :
    xs.foldlM f (done.take limit) = .ok ((done ++ xs.flatMap part).take limit) := by
  induction xs generalizing done with
  | nil =>
    rw [List.flatMap_nil, List.append_nil]
    rfl
  | cons x rest ih =>
    rw [List.foldlM_cons, hf x List.mem_cons_self, List.flatMap_cons, ← List.append_assoc]
    exact ih (fun y hy => hf y (List.mem_cons_of_mem _ hy)) _

/-- A test that the result passes shows that there is a result. -/
theorem exists_of_toOption_any {x : Except Fault β} {p : β → Bool}
    (h : x.toOption.any p = true) : ∃ b, x = .ok b ∧ p b = true := by
  cases x with
  | error e => cases h
  | ok b => exact ⟨b, rfl, h⟩

end JavaDeps
