import JavaDeps.CheckedSort
import JavaDeps.Proofs.Except

/-!
# Sorting succeeds when comparisons do

A sort ends early only when a comparison fails. When all elements of a list can be compared with
each other, sorting succeeds, and no element is lost or added. In the other direction, a sort that
succeeds has compared every element with another one, so that all are of one kind if only elements
of one kind can be compared.

The file proves both for the parts of the sort one after the other: the run at the front, the place
of an element, the insertions; `sort_ok` and `sort_uniform` put them together.
-/

namespace JavaDeps.CheckedSort

variable {ε α : Type} {before : α → α → Except ε Bool}

/-- Any two of the elements can be compared. -/
def Comparable (before : α → α → Except ε Bool) (xs : List α) : Prop :=
  ∀ x ∈ xs, ∀ y ∈ xs, ∃ b, before x y = .ok b

theorem Comparable.mono {xs ys : List α} (h : Comparable before xs) (hsub : ∀ y ∈ ys, y ∈ xs) :
    Comparable before ys :=
  fun x hx y hy => h x (hsub x hx) y (hsub y hy)

/-- Where all elements can be compared, a run is continued to its end. -/
theorem continueRun_ok (down : Bool) {last : α} {xs : List α}
    (h : Comparable before (last :: xs)) :
    ∃ run others, continueRun before down last xs = .ok (run, others) ∧ run ++ others = xs := by
  induction xs generalizing last with
  | nil => exact ⟨[], [], rfl, rfl⟩
  | cons x rest ih =>
    rcases h x (by simp) last (by simp) with ⟨b, hb⟩
    have hrest : Comparable before (x :: rest) := h.mono (fun y hy => List.mem_cons_of_mem _ hy)
    unfold continueRun
    rw [hb]
    by_cases hgoes : (b == down) = true
    · rcases ih hrest with ⟨run, others, hrun, happend⟩
      refine ⟨x :: run, others, ?_, congrArg (x :: ·) happend⟩
      simp only [bind, Except.bind, hgoes, if_true, hrun]
      rfl
    · refine ⟨[], x :: rest, ?_, rfl⟩
      simp only [bind, Except.bind, hgoes]
      rfl

/-- Where all elements can be compared, a run is found at the start. -/
theorem leadingRun_ok {xs : List α} (h : Comparable before xs) :
    ∃ run others, leadingRun before xs = .ok (run, others) ∧ (run ++ others).Perm xs := by
  match xs, h with
  | [], _ => exact ⟨[], [], rfl, .refl _⟩
  | [x], _ => exact ⟨[x], [], rfl, .refl _⟩
  | x :: y :: rest, h =>
    rcases h y (by simp) x (by simp) with ⟨down, hdown⟩
    have hrest : Comparable before (y :: rest) := h.mono (fun z hz => List.mem_cons_of_mem _ hz)
    rcases continueRun_ok down hrest with ⟨run, others, hrun, rfl⟩
    refine ⟨if down then (x :: y :: run).reverse else x :: y :: run, others, ?_, ?_⟩
    · simp only [leadingRun, bind, Except.bind, hdown, hrun]
      rfl
    · -- A run that descends is turned round, and nothing else is moved.
      cases down with
      | false => exact .refl _
      | true => exact (List.reverse_perm _).append_right others

theorem position_ok {x : α} {sorted : List α} (h : ∀ y ∈ sorted, ∃ b, before x y = .ok b)
    (bound low high : Nat) : ∃ n, position before x sorted bound low high = .ok n := by
  induction bound generalizing low high with
  | zero => exact ⟨low, rfl⟩
  | succ bound ih =>
    unfold position
    by_cases hbetween : low < high
    · simp only [hbetween, if_true]
      cases hmiddle : sorted[low + (high - low) / 2]? with
      | none => exact ⟨low, rfl⟩
      | some y =>
        rcases h y (List.mem_of_getElem? hmiddle) with ⟨b, hb⟩
        simp only [bind, Except.bind, hb]
        cases b with
        | true => exact ih _ _
        | false => exact ih _ _
    · exact ⟨low, by simp only [hbetween, if_false]⟩

/-- An element goes between the first `n` elements of a list and the others. -/
theorem insertAt_perm (sorted rest : List α) (x : α) (n : Nat) :
    (sorted.take n ++ x :: sorted.drop n ++ rest).Perm (sorted ++ x :: rest) := by
  have hmoved : (sorted.take n ++ x :: sorted.drop n).Perm (x :: sorted) :=
    calc
      (sorted.take n ++ x :: sorted.drop n).Perm (x :: (sorted.take n ++ sorted.drop n)) :=
        List.perm_middle
      _ = x :: sorted := by rw [List.take_append_drop]
  exact (hmoved.append_right rest).trans List.perm_middle.symm

/-- Insertion by comparisons only rearranges. -/
theorem insertAll_ok {sorted more : List α} (h : Comparable before (sorted ++ more)) :
    ∃ ys, insertAll before sorted more = .ok ys ∧ ys.Perm (sorted ++ more) := by
  induction more generalizing sorted with
  | nil => exact ⟨sorted, rfl, by simp⟩
  | cons x rest ih =>
    have hplace : ∀ y ∈ sorted, ∃ b, before x y = .ok b :=
      fun y hy => h x (by simp) y (by simp [hy])
    rcases position_ok hplace (sorted.length + 1) 0 sorted.length with ⟨n, hn⟩
    have hall := insertAt_perm sorted rest x n
    rcases ih (h.mono (fun y hy => hall.mem_iff.1 hy)) with ⟨ys, hys, hperm⟩
    refine ⟨ys, ?_, hperm.trans hall⟩
    simp only [insertAll, bind, Except.bind, hn, hys]

/-- When all comparisons succeed, a list is sorted into a list of the same elements. -/
theorem sort_ok {xs : List α} (h : Comparable before xs) :
    ∃ ys, sort before xs = .ok ys ∧ ys.Perm xs := by
  rcases leadingRun_ok h with ⟨run, others, hrun, hperm⟩
  rcases insertAll_ok (h.mono (fun y hy => hperm.mem_iff.1 hy)) with ⟨ys, hys, hperm'⟩
  refine ⟨ys, ?_, hperm'.trans hperm⟩
  simp only [sort, bind, Except.bind, hrun, hys]

/-! ## Elements of one kind -/

/-- All elements are of the kind, or none is. -/
def Uniform (kind : α → Prop) (xs : List α) : Prop := ∀ x ∈ xs, ∀ y ∈ xs, kind x ↔ kind y

section

variable {kind : α → Prop} (hkind : ∀ x y b, before x y = .ok b → (kind x ↔ kind y))

theorem Uniform.of_iff {xs : List α} {z : α} (h : ∀ x ∈ xs, kind x ↔ kind z) : Uniform kind xs :=
  fun x hx y hy => (h x hx).trans (h y hy).symm

/-- Rearranged lists are of one kind as before. -/
theorem Uniform.perm {xs ys : List α} (h : Uniform kind xs) (hperm : ys.Perm xs) :
    Uniform kind ys :=
  fun x hx y hy => h x (hperm.mem_iff.1 hx) y (hperm.mem_iff.1 hy)

include hkind

theorem continueRun_uniform {down : Bool} {last : α} {xs run others : List α}
    (h : continueRun before down last xs = .ok (run, others)) :
    run ++ others = xs ∧ ∀ x ∈ run, kind x ↔ kind last := by
  induction xs generalizing last run with
  | nil =>
    cases h
    exact ⟨rfl, by simp⟩
  | cons x rest ih =>
    rcases bind_eq_ok h with ⟨b, hb, h⟩
    have hx : kind x ↔ kind last := hkind x last b hb
    split at h
    · rcases bind_eq_ok h with ⟨⟨run', others'⟩, hrest, h⟩
      cases h
      rcases ih hrest with ⟨happend, hrun⟩
      refine ⟨congrArg (x :: ·) happend, fun y hy => ?_⟩
      rcases List.mem_cons.1 hy with rfl | hy
      · exact hx
      · exact (hrun y hy).trans hx
    · cases h
      exact ⟨rfl, by simp⟩

/-- The run at the start is of one kind. -/
theorem leadingRun_uniform {xs run others : List α} (h : leadingRun before xs = .ok (run, others)) :
    (run ++ others).Perm xs ∧ Uniform kind run ∧ (run = [] → others = []) := by
  match xs with
  | [] =>
    cases h
    exact ⟨.refl _, by simp [Uniform], id⟩
  | [x] =>
    cases h
    exact ⟨.refl _, by simp [Uniform], fun _ => rfl⟩
  | x :: y :: rest =>
    rcases bind_eq_ok h with ⟨down, hdown, h⟩
    rcases bind_eq_ok h with ⟨⟨run', others'⟩, hrest, h⟩
    cases h
    rcases continueRun_uniform hkind hrest with ⟨rfl, hrun⟩
    have huniform : Uniform kind (x :: y :: run') := by
      refine Uniform.of_iff (z := y) (fun z hz => ?_)
      rcases List.mem_cons.1 hz with rfl | hz
      · exact (hkind y z down hdown).symm
      · rcases List.mem_cons.1 hz with rfl | hz
        · exact Iff.rfl
        · exact hrun z hz
    cases down with
    | false => exact ⟨.refl _, huniform, by simp⟩
    | true =>
      have hperm : (x :: y :: run').reverse.Perm (x :: y :: run') := List.reverse_perm _
      exact ⟨hperm.append_right others, huniform.perm hperm, by simp⟩

omit hkind in
/-- To find its place in a list, an element is compared with one of the list. -/
theorem position_compares {x : α} {sorted : List α} {bound n : Nat} (hsorted : sorted ≠ [])
    (h : position before x sorted (bound + 1) 0 sorted.length = .ok n) :
    ∃ y ∈ sorted, ∃ b, before x y = .ok b := by
  have hlength : 0 < sorted.length := List.length_pos_iff.2 hsorted
  have hmiddle : 0 + (sorted.length - 0) / 2 < sorted.length := by omega
  simp only [position, hlength, if_true, List.getElem?_eq_getElem hmiddle] at h
  rcases bind_eq_ok h with ⟨b, hb, -⟩
  exact ⟨_, List.getElem_mem hmiddle, b, hb⟩

/-- Insertion succeeds only into a list of the same kind. -/
theorem insertAll_uniform {sorted more ys : List α} (hsorted : sorted ≠ [])
    (huniform : Uniform kind sorted) (h : insertAll before sorted more = .ok ys) :
    ys.Perm (sorted ++ more) ∧ Uniform kind ys := by
  induction more generalizing sorted with
  | nil =>
    cases h
    exact ⟨by simp, huniform⟩
  | cons x rest ih =>
    rcases bind_eq_ok h with ⟨n, hn, h⟩
    rcases position_compares hsorted hn with ⟨y, hy, b, hb⟩
    -- The new element is of the kind of one of the list, and so of the kind of all.
    have hinserted : Uniform kind (sorted.take n ++ x :: sorted.drop n) := by
      refine Uniform.of_iff (z := y) (fun z hz => ?_)
      have hz : z ∈ sorted ++ [x] :=
        (insertAt_perm sorted [] x n).mem_iff.1 (List.mem_append_left _ hz)
      rcases List.mem_append.1 hz with hz | hz
      · exact huniform z hz y hy
      · rw [List.mem_singleton.1 hz]
        exact hkind x y b hb
    rcases ih (by simp) hinserted h with ⟨hperm, hys⟩
    exact ⟨hperm.trans (insertAt_perm sorted rest x n), hys⟩

/-- A list that is sorted has the same elements as before, and they are of one kind. -/
theorem sort_uniform {xs ys : List α} (h : sort before xs = .ok ys) :
    ys.Perm xs ∧ Uniform kind ys := by
  rcases bind_eq_ok h with ⟨⟨run, others⟩, hrun, h⟩
  rcases leadingRun_uniform hkind hrun with ⟨hperm, huniform, hnone⟩
  by_cases hempty : run = []
  · cases hnone hempty
    cases h
    exact ⟨by simpa using hperm, huniform⟩
  · rcases insertAll_uniform hkind hempty huniform h with ⟨hperm', hys⟩
    exact ⟨hperm'.trans hperm, hys⟩

end

end JavaDeps.CheckedSort
