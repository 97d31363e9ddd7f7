import JavaDeps.Graph.Edit
import JavaDeps.Proofs.Alike

/-!
# Edits and the edges of a graph

The edits of a user never list a class, never take in a file and never put an edge between two
files that had none. They may take such edges away and put other labels on them.
-/

namespace JavaDeps

/-! ## Edges between files -/

/-- A table of calls lists a target in a row of a source. -/
def Linked (calls : Table SourcePath (Targets SourcePath)) (source target : SourcePath) : Prop :=
  ∃ row, (source, row) ∈ calls.entries ∧ target ∈ row.keys

/-- Files that are linked in one table are linked in the other, whatever their labels are. -/
def Sparser (kept calls : Table SourcePath (Targets SourcePath)) : Prop :=
  ∀ source target, Linked kept source target → Linked calls source target

variable {calls kept : Table SourcePath (Targets SourcePath)} {source target : SourcePath}

theorem linked_of_mem_getD (h : target ∈ (calls.getD source Table.empty).keys) :
    Linked calls source target := by
  unfold Table.getD at h
  cases hrow : calls.get? source with
  | none =>
    rw [hrow] at h
    cases h
  | some row =>
    rw [hrow] at h
    exact ⟨row, Table.mem_entries_of_get? hrow, h⟩

/-- Writing labels links two files at most. -/
theorem linked_of_alter {l : Labels} {s t : SourcePath}
    (h : Linked (calls.alter source Table.empty (fun row => row.set target l)) s t) :
    (s = source ∧ t = target) ∨ Linked calls s t := by
  rcases h with ⟨row, hrow, ht⟩
  rcases Table.mem_set hrow with heq | hold
  · cases heq
    rcases Table.mem_keys_set.1 ht with rfl | ht
    · exact Or.inl ⟨rfl, rfl⟩
    · exact Or.inr (linked_of_mem_getD ht)
  · exact Or.inr ⟨row, hold, ht⟩

namespace Sparser

theorem refl (calls : Table SourcePath (Targets SourcePath)) : Sparser calls calls :=
  fun _ _ h => h

/-- What is sparser than a sparser table is sparser than the table. -/
theorem trans {fewer : Table SourcePath (Targets SourcePath)} (h : Sparser fewer kept)
    (h' : Sparser kept calls) : Sparser fewer calls :=
  fun source target hl => h' source target (h source target hl)

theorem empty : Sparser Table.empty calls := by
  rintro source target ⟨row, hrow, -⟩
  cases hrow

/-- Writing a row that lists only what its source is linked to. -/
theorem set (h : Sparser kept calls) {row : Targets SourcePath}
    (hrow : ∀ target ∈ row.keys, Linked calls source target) :
    Sparser (kept.set source row) calls := by
  rintro s t ⟨found, hfound, ht⟩
  rcases Table.mem_set hfound with heq | hold
  · cases heq
    exact hrow t ht
  · exact h s t ⟨found, hold, ht⟩

/-- Writing labels between two files that are linked. -/
theorem alter (h : Sparser kept calls) (hlinked : Linked calls source target) (l : Labels) :
    Sparser (kept.alter source Table.empty (fun row => row.set target l)) calls := by
  intro s t hentered
  rcases linked_of_alter hentered with ⟨rfl, rfl⟩ | hold
  · exact hlinked
  · exact h s t hold

theorem mapValues (f : Labels → Labels) : Sparser (calls.mapValues (Table.mapValues f)) calls := by
  rintro s t ⟨found, hfound, ht⟩
  rcases List.mem_map.1 hfound with ⟨⟨s', row⟩, hrow, heq⟩
  cases heq
  have hkeys : (row.mapValues f).keys = row.keys := by
    simp [Table.keys, Table.mapValues]
  exact ⟨row, hrow, hkeys ▸ ht⟩

/-- Taking out a node adds no edge. -/
theorem detach (isNode : SourcePath → Bool) : Sparser (Graph.detach isNode calls) calls := by
  rintro s t ⟨found, hfound, ht⟩
  rcases List.mem_map.1 hfound with ⟨⟨s', row⟩, hrow, heq⟩
  cases heq
  -- A row that stays lost at most its first entry for the node.
  have hsub : (Graph.eraseFirst isNode row).keys.Sublist row.keys :=
    List.eraseP_sublist.map Prod.fst
  exact ⟨row, (List.mem_filter.1 hrow).1, hsub.mem ht⟩

theorem removeEdge (e : SourcePath × SourcePath) : Sparser (Graph.removeEdge calls e) calls := by
  refine (refl calls).set (fun t ht => ?_)
  rw [Table.keys_erase] at ht
  exact linked_of_mem_getD (List.mem_filter.1 ht).1

end Sparser

/-- An edge that is found is there. -/
theorem Graph.linked_of_findEdge {isSource isTarget : SourcePath → Bool}
    {e : SourcePath × SourcePath}
    (h : findEdge isSource isTarget calls = some e) : Linked calls e.1 e.2 := by
  unfold findEdge at h
  split at h
  · rename_i row hrow
    rcases Option.map_eq_some_iff.1 h with ⟨target, htarget, rfl⟩
    exact ⟨row.2, List.mem_of_find?_eq_some hrow, List.mem_of_find?_eq_some htarget⟩
  · cases h

/-! ## Edits -/

/-- The directory, the classes and the files stay as they are, and no edge between files is new. -/
structure Graph.Trims (g g' : Graph) : Prop where
  root : g'.root = g.root
  classes : g'.classes = g.classes
  declared : g'.declared = g.declared
  calls : Sparser g'.calls g.calls

namespace Graph

/-- An edit that needs a key and changes nothing without one. -/
theorem keyed_keeps {I : Graph → Prop} {g : Graph} (hg : I g) {κ : Type} (key? : Except Fault κ)
    {f : κ → Graph} (hf : ∀ key, I (f key)) :
    I (g.allOrNothing (do let key ← key?; return f key)).2 := by
  cases key? with
  | ok key => exact hf key
  | error e => exact hg

namespace Trims

variable {g g' g'' : Graph}

theorem refl (g : Graph) : g.Trims g := ⟨rfl, rfl, rfl, Sparser.refl _⟩

theorem trans (h : g.Trims g') (h' : g'.Trims g'') : g.Trims g'' where
  root := h'.root.trans h.root
  classes := h'.classes.trans h.classes
  declared := h'.declared.trans h.declared
  calls := h'.calls.trans h.calls

/-- An edit that fails for its key changes nothing. -/
theorem keyed {κ : Type} (key? : Except Fault κ) {f : κ → Graph} (h : ∀ key, g.Trims (f key)) :
    g.Trims (g.allOrNothing (do let key ← key?; return f key)).2 :=
  keyed_keeps (refl g) key? h

end Trims

section

variable (g : Graph)

theorem hideNode_trims (node : Value) : g.Trims (g.hideNode node).2 :=
  Trims.keyed node.asKey (fun _ => ⟨rfl, rfl, rfl, Sparser.refl _⟩)

theorem showNode_trims (node : Value) : g.Trims (g.showNode node).2 :=
  Trims.keyed node.asKey (fun _ => ⟨rfl, rfl, rfl, Sparser.refl _⟩)

theorem hideEdge_trims (source target : Value) : g.Trims (g.hideEdge source target).2 :=
  Trims.keyed (edgeKey source target) (fun _ => ⟨rfl, rfl, rfl, Sparser.refl _⟩)

theorem showEdge_trims (source target : Value) : g.Trims (g.showEdge source target).2 :=
  Trims.keyed (edgeKey source target) (fun _ => ⟨rfl, rfl, rfl, Sparser.refl _⟩)

theorem setColor_trims (node color : Value) : g.Trims (g.setColor node color).2 :=
  Trims.keyed node.asKey (fun _ => ⟨rfl, rfl, rfl, Sparser.refl _⟩)

theorem resetColor_trims (node : Value) : g.Trims (g.resetColor node).2 :=
  Trims.keyed node.asKey (fun _ => ⟨rfl, rfl, rfl, Sparser.refl _⟩)

/-- Deleting a node takes edges away and nothing else. -/
theorem deleteNode_trims (node : Value) : g.Trims (g.deleteNode node).2 :=
  Trims.keyed node.asKey (fun _ => ⟨rfl, rfl, rfl, Sparser.detach _⟩)

theorem addNode_trims (node classes color : Value) : g.Trims (g.addNode node classes color).2 := by
  unfold addNode
  split
  · cases node.asKey with
    | ok key => exact ⟨rfl, rfl, rfl, Sparser.refl _⟩
    | error e => exact Trims.refl g
  · exact Trims.refl g

theorem setCustomLabels_trims (source target : Node) (l : Labels) :
    g.Trims (g.setCustomLabels source target l) :=
  ⟨rfl, rfl, rfl, Sparser.refl _⟩

/-- Labels that are tied get a new value, but stay where they are. -/
theorem writeTied_trims (tie : Nat) (v : Value) : g.Trims (g.writeTied tie v) :=
  ⟨rfl, rfl, rfl, Sparser.mapValues _⟩

/-- Tied labels are no edges. -/
theorem withValue_trims (l : Labels) (v : Value) {write : Graph → Labels → Graph}
    (hwrite : ∀ g l, Trims g (write g l)) : g.Trims (g.withValue l v write) := by
  -- The edge itself is written first, and then all edges that are tied to it.
  have hwritten := hwrite g { l with value := v }
  simp only [withValue]
  split
  · exact hwritten.trans (writeTied_trims _ _ v)
  · exact hwritten

theorem extendCustom_trims (source target : Node) (methods : Value) :
    g.Trims (g.extendCustom source target methods).2 := by
  have hentered := g.setCustomLabels_trims source target (g.customLabels source target)
  simp only [extendCustom]
  -- An edge that is there is entered with its own labels before it is asked for a list.
  split
  · split
    · cases methods.elements with
      | ok more =>
        exact hentered.trans
          (withValue_trims _ _ _ (fun g l => g.setCustomLabels_trims source target l))
      | error e => exact hentered
    · exact hentered
  · exact hentered

/-- An edge that is added by hand is no call. -/
theorem addEdge_trims (source target methods : Value) :
    g.Trims (g.addEdge source target methods).2 := by
  -- Every check fails before anything is entered.
  unfold addEdge
  split
  · exact Trims.refl g
  · split
    · exact Trims.refl g
    · split
      · exact Trims.refl g
      · split
        · exact Trims.refl g
        · split
          · exact g.extendCustom_trims _ _ methods
          · exact Trims.refl g

/-- The edges that are found are gone, even when the names of the ends cannot be a hidden edge. -/
theorem deleteEdge_graph (g : Graph) (source target : Value) :
    ∃ hidden, (g.deleteEdge source target).2 =
      { g with
        calls := (g.callEdge? source target).elim g.calls (removeEdge g.calls)
        customEdges := (g.customEdge? source target).elim g.customEdges
          (fun e => dropEmptyRow (removeEdge g.customEdges e) e.1)
        hiddenEdges := hidden } := by
  unfold deleteEdge
  cases g.callEdge? source target <;> cases g.customEdge? source target <;>
    cases edgeKey source target <;> exact ⟨_, rfl⟩

theorem deleteEdge_trims (source target : Value) : g.Trims (g.deleteEdge source target).2 := by
  rcases g.deleteEdge_graph source target with ⟨hidden, heq⟩
  rw [heq]
  refine ⟨rfl, rfl, rfl, ?_⟩
  cases g.callEdge? source target with
  | none => exact Sparser.refl _
  | some e => exact Sparser.removeEdge e

/-- Only an edge that was found gets other labels. -/
theorem relabel_trims (source target labels : Value) :
    g.Trims (g.relabel source target labels).2 := by
  unfold relabel
  cases hfound : g.callEdge? source target with
  | none =>
    have hkept : ∀ tie, g.Trims { g with nextTie := tie } :=
      fun _ => ⟨rfl, rfl, rfl, Sparser.refl _⟩
    cases g.customEdge? source target with
    | none => exact hkept _
    | some e => exact (hkept _).trans (setCustomLabels_trims _ e.1 e.2 _)
  | some edge =>
    have hlinked : Linked g.calls edge.1 edge.2 := linked_of_findEdge hfound
    have hcall : ∀ (l : Labels) (tie : Nat),
        g.Trims ({ g with nextTie := tie }.setLabels edge.1 edge.2 l) :=
      fun l _ => ⟨rfl, rfl, rfl, (Sparser.refl g.calls).alter hlinked l⟩
    cases g.customEdge? source target with
    | none => exact hcall _ _
    | some e => exact (hcall _ _).trans (setCustomLabels_trims _ e.1 e.2 _)

end

end Graph

end JavaDeps
