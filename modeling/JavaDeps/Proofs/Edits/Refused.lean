import JavaDeps.Graph.Edit
import JavaDeps.Proofs.Except
import JavaDeps.Proofs.Table

/-!
# Edits that do not work

An edit that fails, or that tells that it did not work, leaves the graph as it was, with two
exceptions. Deleting an edge that is not there still takes the two names out of the hidden edges.
And adding an edge with labels that cannot be listed enters the edge before it looks at the labels.
-/

namespace JavaDeps

/-! ## Keys -/

theorem Value.eq_str_of_isText {v : Value} {s : String} (h : v.isText s = true) : v = .str s := by
  unfold Value.isText at h
  split at h
  · rw [eq_of_beq h]
  · cases h

/-- A value that cannot be a key is no text. -/
theorem Value.isText_eq_false_of_asKey {v : Value} {e : Fault}
    (h : v.asKey = .error e) (s : String) :
    v.isText s = false := by
  cases v with
  | atom a => cases h
  | list items => rfl
  | obj fields => rfl

theorem Node.isNamed_eq_false_of_asKey {v : Value} {e : Fault} (h : v.asKey = .error e) (n : Node) :
    n.isNamed v = false := by
  cases n with
  | file p => exact Value.isText_eq_false_of_asKey h p.stem
  | named a =>
    cases v with
    | atom b => cases h
    | list items => rfl
    | obj fields => rfl

namespace Graph

variable {g : Graph}

/-! ## Edits of nodes -/

/-- An edit that is all or nothing and fails changes nothing. -/
theorem allOrNothing_refused {r : Except Fault Graph} (h : (g.allOrNothing r).1 ≠ .ok ()) :
    (g.allOrNothing r).2 = g := by
  cases r with
  | ok g' => exact absurd rfl h
  | error e => rfl

/-- A name that can be a key is always added. -/
theorem addNode_refused {node classes color : Value}
    (h : (g.addNode node classes color).1 ≠ .ok true) :
    (g.addNode node classes color).2 = g := by
  unfold addNode at h ⊢
  split
  · rename_i hnode
    rw [if_pos hnode] at h
    cases hkey : node.asKey with
    | ok key =>
      rw [hkey] at h
      exact absurd rfl h
    | error e => rfl
  · rfl

/-! ## Added edges -/

/-- Labels that are not a list are on an edge that is there, so that entering it again with its own
labels changes nothing. -/
theorem setCustomLabels_customLabels {source target : Node}
    (h : g.customLabels source target ≠ Labels.none) :
    g.setCustomLabels source target (g.customLabels source target) = g := by
  have hrow : (g.customEdges.getD source Table.empty).get? target =
      some (g.customLabels source target) := Table.get?_of_getD_ne h
  have hsource : g.customEdges.get? source = some (g.customEdges.getD source Table.empty) := by
    apply Table.get?_of_getD_ne
    intro hempty
    rw [hempty] at hrow
    cases hrow
  have hsame : g.customEdges.alter source Table.empty
      (fun row => row.set target (g.customLabels source target)) = g.customEdges := by
    rw [Table.alter, Table.set_of_get? hrow]
    exact Table.set_of_get? hsource
  rw [setCustomLabels, hsame]

theorem extendCustom_refused {source target : Node} {methods : Value}
    (h : (g.extendCustom source target methods).1 ≠ .ok true) :
    (g.extendCustom source target methods).2 = g ∨
      ∃ e edges, methods.isTruthy = true ∧ methods.elements = .error e ∧
        (g.extendCustom source target methods).2 = { g with customEdges := edges } := by
  simp only [extendCustom] at h ⊢
  split
  · rename_i items hitems
    rw [hitems] at h
    dsimp only at h
    split
    · rename_i htruthy
      rw [if_pos htruthy] at h
      cases helements : methods.elements with
      | ok more =>
        rw [helements] at h
        exact absurd rfl h
      | error e => exact Or.inr ⟨e, _, htruthy, rfl, rfl⟩
    · rename_i hfalsy
      rw [if_neg hfalsy] at h
      exact absurd rfl h
  · rename_i hlist
    refine Or.inl (setCustomLabels_customLabels ?_)
    -- A new edge has an empty list of labels.
    intro hnone
    exact hlist [] (by rw [hnone]; rfl)

/-- Adding an edge that is refused changes nothing, or enters an edge without labels. -/
theorem addEdge_refused {source target methods : Value}
    (h : (g.addEdge source target methods).1 ≠ .ok true) :
    (g.addEdge source target methods).2 = g ∨
      ∃ e edges, methods.isTruthy = true ∧ methods.elements = .error e ∧
        (g.addEdge source target methods).2 = { g with customEdges := edges } := by
  -- All other checks are made before anything is entered.
  unfold addEdge at h ⊢
  split
  · exact Or.inl rfl
  · rename_i hs
    rw [hs] at h
    dsimp only at h
    split
    · exact Or.inl rfl
    · rename_i hshown
      rw [if_neg hshown] at h
      split
      · exact Or.inl rfl
      · rename_i ht
        rw [ht] at h
        dsimp only at h
        split
        · exact Or.inl rfl
        · rename_i hshown'
          rw [if_neg hshown'] at h
          split
          · rename_i hfound hfound'
            rw [hfound, hfound'] at h
            exact extendCustom_refused h
          · exact Or.inl rfl

/-! ## Edges that are not there -/

theorem findEdge_eq_none_of_source {α : Type} [BEq α] {isSource isTarget : α → Bool}
    {t : Table α (Targets α)} (h : ∀ x, isSource x = false) :
    findEdge isSource isTarget t = none := by
  have hnone : t.entries.find? (fun e => isSource e.1) = none := by simp [h]
  rw [findEdge, hnone]

theorem findEdge_eq_none_of_target {α : Type} [BEq α] {isSource isTarget : α → Bool}
    {t : Table α (Targets α)} (h : ∀ x, isTarget x = false) :
    findEdge isSource isTarget t = none := by
  unfold findEdge
  split
  · simp [h]
  · rfl

/-- Only values that can be keys name an edge. -/
theorem edges_eq_none_of_edgeKey {source target : Value} {e : Fault}
    (h : edgeKey source target = .error e) :
    g.callEdge? source target = none ∧ g.customEdge? source target = none := by
  cases hsource : source.asKey with
  | error e' =>
    exact ⟨findEdge_eq_none_of_source (fun p => Value.isText_eq_false_of_asKey hsource p.stem),
      findEdge_eq_none_of_source (Node.isNamed_eq_false_of_asKey hsource)⟩
  | ok s =>
    cases htarget : target.asKey with
    | error e' =>
      exact ⟨findEdge_eq_none_of_target (fun p => Value.isText_eq_false_of_asKey htarget p.stem),
        findEdge_eq_none_of_target (Node.isNamed_eq_false_of_asKey htarget)⟩
    | ok t =>
      rw [edgeKey, hsource, htarget] at h
      cases h

/-- Deleting an edge that is not there changes nothing, or shows it again. -/
theorem deleteEdge_refused {source target : Value} (h : (g.deleteEdge source target).1 ≠ .ok true) :
    (g.deleteEdge source target).2 = g ∨
      ∃ key, edgeKey source target = .ok key ∧ g.callEdge? source target = none ∧
        g.customEdge? source target = none ∧
        (g.deleteEdge source target).2 = { g with hiddenEdges := g.hiddenEdges.erase key } := by
  cases hkey : edgeKey source target with
  | error e =>
    rcases g.edges_eq_none_of_edgeKey hkey with ⟨hcall, hcustom⟩
    exact Or.inl (by simp only [deleteEdge, hkey, hcall, hcustom])
  | ok key =>
    -- The answer tells whether an edge was found in one of the tables.
    have hnone : g.callEdge? source target = none ∧ g.customEdge? source target = none := by
      simp only [deleteEdge, hkey] at h
      cases hcall : g.callEdge? source target with
      | some edge => exact absurd (by simp [hcall]) h
      | none =>
        cases hcustom : g.customEdge? source target with
        | some edge => exact absurd (by simp [hcustom]) h
        | none => exact ⟨rfl, rfl⟩
    refine Or.inr ⟨key, rfl, hnone.1, hnone.2, ?_⟩
    simp only [deleteEdge, hkey, hnone.1, hnone.2]

theorem relabel_refused {source target labels : Value}
    (h : (g.relabel source target labels).1 ≠ true) :
    (g.relabel source target labels).2 = g := by
  cases hcall : g.callEdge? source target with
  | some edge => exact absurd (by simp [relabel, hcall]) h
  | none =>
    cases hcustom : g.customEdge? source target with
    | some edge => exact absurd (by simp [relabel, hcustom]) h
    | none => simp [relabel, hcall, hcustom]

end Graph

end JavaDeps
