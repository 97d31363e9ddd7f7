import JavaDeps.Graph.Basic
import JavaDeps.Proofs.Table

/-!
# Tables of calls

The analysis only writes lists of texts on edges, and only between the files that it reads. The
file defines:
- `Labels.names`, the texts on an edge, and `Graph.names`;
- `TextCalls`, the tables of calls with texts on their edges, and `CallsIn`, what holds of every
  table of calls that an analysis builds up;
- what `setLabels`, `addCall` and `addCallOnce` do to such a table.
-/

namespace JavaDeps

/-! ## The texts on an edge -/

def Value.text? : Value → Option String
  | .str s => some s
  | _ => none

def Labels.names (l : Labels) : List String :=
  match l.value with
  | .list items => items.filterMap Value.text?
  | _ => []

theorem Labels.names_of_value {l : Labels} {names : List String}
    (h : l.value = Value.ofNames names) :
    l.names = names := by
  simp [Labels.names, h, Value.ofNames, List.filterMap_map, Function.comp_def, Value.text?]

@[simp] theorem Labels.names_ofNames (names : List String) : (Labels.ofNames names).names = names :=
  Labels.names_of_value rfl

/-- Texts can be told from the labels made of them. -/
theorem Labels.ofNames_injective {names names' : List String}
    (h : Labels.ofNames names = Labels.ofNames names') : names = names' := by
  simpa using congrArg Labels.names h

/-- A text is among labels exactly when the labels hold it. -/
theorem Value.holds_ofNames (names : List String) (label : String) :
    (Value.ofNames names).holds label = .ok (names.contains label) := by
  have hany : (names.map Value.str).any (·.isText label) = names.contains label := by
    induction names with
    | nil => rfl
    | cons n rest ih =>
      have hn : (Value.str n).isText label = (label == n) := by
        simp [Value.isText, Bool.beq_comm]
      simp only [List.map_cons, List.any_cons, List.contains_cons, hn, ih]
  exact congrArg Except.ok hany

def Graph.names (g : Graph) (source target : SourcePath) : List String :=
  (g.labels source target).names

def Graph.edge? (g : Graph) (source target : SourcePath) : Option Labels :=
  (g.calls.get? source).bind (fun row => row.get? target)

/-- Without an edge there are no labels. -/
theorem Graph.labels_eq_edge? (g : Graph) (source target : SourcePath) :
    g.labels source target = (g.edge? source target).getD Labels.none := by
  unfold Graph.labels Graph.edge? Table.getD
  cases g.calls.get? source <;> simp [Table.get?_empty]

/-! ## Tables that an analysis builds -/

/-- The edges have nothing but texts on them. There can be edges without a text and sources without
an edge. -/
def TextCalls (calls : Table SourcePath (Targets SourcePath)) : Prop :=
  ∀ e ∈ calls.entries, ∀ x ∈ e.2.entries, ∃ names, x.2.value = Value.ofNames names

/-- A table of calls as an analysis builds it: every source has a target, all files are as described
by `inside`, and every edge carries texts, at least one. -/
structure CallsIn (inside : SourcePath → Prop) (calls : Table SourcePath (Targets SourcePath)) :
    Prop where
  source_inside : ∀ e ∈ calls.entries, inside e.1
  row_ne_nil : ∀ e ∈ calls.entries, e.2.entries ≠ []
  target_inside : ∀ e ∈ calls.entries, ∀ x ∈ e.2.entries, inside x.1
  labelled : ∀ e ∈ calls.entries, ∀ x ∈ e.2.entries,
    ∃ names, names ≠ [] ∧ x.2 = Labels.ofNames names

namespace CallsIn

variable {inside : SourcePath → Prop}

/-- Labels of an analysis are texts. -/
theorem textCalls {calls : Table SourcePath (Targets SourcePath)} (h : CallsIn inside calls) :
    TextCalls calls := by
  intro e he x hx
  rcases h.labelled e he x hx with ⟨names, -, hnames⟩
  exact ⟨names, by rw [hnames]; rfl⟩

theorem empty : CallsIn inside Table.empty := by
  constructor <;> simp

/-- An edge runs between files of the analysis and carries texts. -/
theorem edge {g : Graph} (h : CallsIn inside g.calls) {source target : SourcePath} {l : Labels}
    (hl : g.edge? source target = some l) :
    inside source ∧ inside target ∧ ∃ names, names ≠ [] ∧ l = Labels.ofNames names := by
  unfold Graph.edge? at hl
  rcases Option.bind_eq_some_iff.1 hl with ⟨row, hrow, htarget⟩
  have hr := Table.mem_entries_of_get? hrow
  have ht := Table.mem_entries_of_get? htarget
  exact ⟨h.source_inside _ hr, h.target_inside _ hr _ ht, h.labelled _ hr _ ht⟩

/-- The labels between two files are the texts on them. -/
theorem labels {g : Graph} (h : CallsIn inside g.calls) (source target : SourcePath) :
    g.labels source target = Labels.ofNames (g.names source target) := by
  have hex : ∃ names, g.labels source target = Labels.ofNames names := by
    rw [Graph.labels_eq_edge?]
    cases hl : g.edge? source target with
    | none => exact ⟨[], rfl⟩
    | some l =>
      rcases (h.edge hl).2.2 with ⟨names, _, hnames⟩
      exact ⟨names, hnames⟩
  rcases hex with ⟨names, hnames⟩
  rw [Graph.names, hnames, Labels.names_ofNames]

/-- Writing texts on an edge between two files of the analysis. -/
theorem setLabels {g : Graph} (h : CallsIn inside g.calls) {source target : SourcePath}
    (hs : inside source) (ht : inside target) {names : List String} (hn : names ≠ []) :
    CallsIn inside (g.setLabels source target (Labels.ofNames names)).calls := by
  -- A row that is written is either a row of the table or the empty one.
  have hrow : ∀ {P : Targets SourcePath → Prop}, (∀ e ∈ g.calls.entries, P e.2) →
      P Table.empty → P (g.calls.getD source Table.empty) := by
    intro P hP hempty
    unfold Table.getD
    cases hr : g.calls.get? source with
    | none => exact hempty
    | some row => exact hP _ (Table.mem_entries_of_get? hr)
  have hinside : ∀ x ∈ (g.calls.getD source Table.empty).entries, inside x.1 :=
    hrow (P := fun row => ∀ x ∈ row.entries, inside x.1) h.target_inside (by simp)
  have hlabel : ∀ x ∈ (g.calls.getD source Table.empty).entries,
      ∃ names, names ≠ [] ∧ x.2 = Labels.ofNames names :=
    hrow (P := fun row => ∀ x ∈ row.entries, ∃ names, names ≠ [] ∧ x.2 = Labels.ofNames names)
      h.labelled (by simp)
  have hmem : ∀ e ∈ (g.setLabels source target (Labels.ofNames names)).calls.entries,
      e = (source, (g.calls.getD source Table.empty).set target (Labels.ofNames names)) ∨
        e ∈ g.calls.entries :=
    fun e he => Table.mem_set he
  refine ⟨?_, ?_, ?_, ?_⟩
  · intro e he
    rcases hmem e he with rfl | he
    · exact hs
    · exact h.source_inside e he
  · intro e he
    rcases hmem e he with rfl | he
    · exact Table.set_entries_ne_nil _ _ _
    · exact h.row_ne_nil e he
  · intro e he x hx
    rcases hmem e he with rfl | he
    · rcases Table.mem_set hx with rfl | hx
      · exact ht
      · exact hinside x hx
    · exact h.target_inside e he x hx
  · intro e he x hx
    rcases hmem e he with rfl | he
    · rcases Table.mem_set hx with rfl | hx
      · exact ⟨names, hn, rfl⟩
      · exact hlabel x hx
    · exact h.labelled e he x hx

end CallsIn

/-! ## Adding labels -/

namespace Graph

/-- Labels that are written are those of one edge only. -/
theorem names_setLabels (g : Graph) (source target source' target' : SourcePath)
    (names : List String) :
    (g.setLabels source target (Labels.ofNames names)).names source' target' =
      if source = source' ∧ target = target' then names else g.names source' target' := by
  by_cases hs : source = source'
  · subst hs
    by_cases ht : target = target' <;>
      simp [Graph.names, Graph.labels, Graph.setLabels, Table.getD_alter, Table.getD_set, ht]
  · simp [Graph.names, Graph.labels, Graph.setLabels, Table.getD_alter, hs]

/-- Adding a call puts its label behind the others. -/
theorem addCall_eq {inside : SourcePath → Prop} {g : Graph} (h : CallsIn inside g.calls)
    (source target : SourcePath) (label : String) :
    g.addCall source target label =
      .ok (g.setLabels source target (Labels.ofNames (g.names source target ++ [label]))) := by
  unfold Graph.addCall
  rw [h.labels source target]
  simp [Labels.ofNames, Value.ofNames, Graph.withValue]

/-- A call that is added once leaves an edge alone that has its label. -/
theorem addCallOnce_eq {inside : SourcePath → Prop} {g : Graph} (h : CallsIn inside g.calls)
    (source target : SourcePath) (label : String) :
    g.addCallOnce source target label =
      .ok (if label ∈ g.names source target then g
        else g.setLabels source target (Labels.ofNames (g.names source target ++ [label]))) := by
  have hholds : (g.labels source target).value.holds label =
      .ok ((g.names source target).contains label) := by
    rw [h.labels source target]
    exact Value.holds_ofNames _ _
  unfold Graph.addCallOnce
  rw [hholds]
  by_cases hl : label ∈ g.names source target
  · simp [hl]
  · simp [hl, addCall_eq h]

end Graph
end JavaDeps
