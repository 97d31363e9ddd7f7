import JavaDeps.Proofs.Metadata.Listed
import JavaDeps.Proofs.Operations

/-!
# What labels consist of

Edits put labels on edges, and lists of classes on added nodes, as they are given. So what all given
values consist of, texts for example, all labels and classes in the graph consist of.
-/

namespace JavaDeps

/-! ## Tables of edges -/

def RowsCarry {α : Type} [BEq α] (p : Value → Prop) (t : Table α (Targets α)) : Prop :=
  ∀ e ∈ t.entries, ∀ f ∈ e.2.entries, f.2.value.Consists p

namespace RowsCarry

variable {α : Type} [BEq α] {p : Value → Prop} {t t' : Table α (Targets α)}

theorem empty : RowsCarry p (Table.empty : Table α (Targets α)) := by
  intro e he
  cases he

theorem mapValues (h : RowsCarry p t) {f : Labels → Labels}
    (hf : ∀ l : Labels, l.value.Consists p → (f l).value.Consists p) :
    RowsCarry p (t.mapValues (Table.mapValues f)) := by
  intro e he x hx
  rcases List.mem_map.1 he with ⟨row, hrow, rfl⟩
  rcases List.mem_map.1 hx with ⟨cell, hcell, rfl⟩
  exact hf cell.2 (h row hrow cell hcell)

/-- Taking out a node brings in no labels. -/
theorem detach (h : RowsCarry p t) (isNode : α → Bool) : RowsCarry p (Graph.detach isNode t) := by
  intro e he x hx
  rcases List.mem_map.1 he with ⟨row, hrow, rfl⟩
  -- A row that stays lost at most one cell.
  exact h row (List.mem_filter.1 hrow).1 x (List.mem_of_mem_eraseP hx)

theorem getD (h : RowsCarry p t) (source : α) :
    ∀ f ∈ (t.getD source Table.empty).entries, f.2.value.Consists p := by
  intro f hf
  rcases Table.entry_of_mem_getD hf with ⟨source', row, hrow, -, hcell⟩
  exact h _ hrow f hcell

theorem set (h : RowsCarry p t) {source : α} {row : Targets α}
    (hrow : ∀ f ∈ row.entries, f.2.value.Consists p) : RowsCarry p (t.set source row) := by
  intro e he
  rcases Table.value_of_mem_set he with hvalue | he
  · rw [hvalue]
    exact hrow
  · exact h e he

/-- An edge may be labelled with such values. -/
theorem alter (h : RowsCarry p t) (source target : α) {l : Labels} (hl : l.value.Consists p) :
    RowsCarry p (t.alter source Table.empty (fun row => row.set target l)) := by
  refine h.set (fun f hf => ?_)
  rcases Table.value_of_mem_set hf with hvalue | hf
  · rw [hvalue]
    exact hl
  · exact h.getD source f hf

/-- A new edge has an empty list of labels. -/
theorem labels (h : RowsCarry p t) (source target : α) :
    ((t.getD source Table.empty).getD target Labels.none).value.Consists p := by
  rw [Table.getD]
  cases hget : (t.getD source Table.empty).get? target with
  | none => exact Value.Consists.nil
  | some l =>
    rcases Table.entry_of_get? hget with ⟨target', hcell, -⟩
    exact h.getD source _ hcell

theorem removeEdge (h : RowsCarry p t) (e : α × α) : RowsCarry p (Graph.removeEdge t e) := by
  refine h.set (fun f hf => ?_)
  exact h.getD e.1 f (List.mem_filter.1 hf).1

theorem dropEmptyRow (h : RowsCarry p t) (source : α) :
    RowsCarry p (Graph.dropEmptyRow t source) := by
  unfold Graph.dropEmptyRow
  split
  · exact fun e he => h e (List.mem_filter.1 he).1
  · exact h

end RowsCarry

/-! ## Edits -/

namespace Graph

variable {p : Value → Prop} {g : Graph}

/-- The labels of all edges consist of values as described. -/
structure LabelsCarry (p : Value → Prop) (g : Graph) : Prop where
  calls : RowsCarry p g.calls
  custom : RowsCarry p g.customEdges

namespace LabelsCarry

theorem setCustomLabels (h : g.LabelsCarry p) (source target : Node) {l : Labels}
    (hl : l.value.Consists p) : (g.setCustomLabels source target l).LabelsCarry p :=
  ⟨h.calls, h.custom.alter source target hl⟩

theorem setLabels (h : g.LabelsCarry p) (source target : SourcePath) {l : Labels}
    (hl : l.value.Consists p) : (g.setLabels source target l).LabelsCarry p :=
  ⟨h.calls.alter source target hl, h.custom⟩

/-- Tied labels are written everywhere at once. -/
theorem withValue (h : g.LabelsCarry p) (l : Labels) {v : Value} (hv : v.Consists p)
    {write : Graph → Labels → Graph}
    (hwrite : ∀ (g : Graph) (l : Labels), g.LabelsCarry p → l.value.Consists p →
      (write g l).LabelsCarry p) :
    (g.withValue l v write).LabelsCarry p := by
  have hwritten : (write g { l with value := v }).LabelsCarry p := hwrite g _ h hv
  have htied : ∀ (tie : Nat) (l : Labels), l.value.Consists p →
      (retie tie v l).value.Consists p := by
    intro tie l hl
    unfold retie
    split
    · exact hv
    · exact hl
  unfold Graph.withValue
  dsimp only
  split
  · exact ⟨hwritten.calls.mapValues (htied _), hwritten.custom.mapValues (htied _)⟩
  · exact hwritten

theorem mono {q : Value → Prop} (h : g.LabelsCarry p) (hpq : ∀ item, p item → q item) :
    g.LabelsCarry q :=
  ⟨fun e he f hf => (h.calls e he f hf).mono hpq, fun e he f hf => (h.custom e he f hf).mono hpq⟩

/-- A call brings in its label only. -/
theorem addCall {g' : Graph} {label : String} (h : g.LabelsCarry p) (hlabel : p (.str label))
    {source target : SourcePath} (hadd : g.addCall source target label = .ok g') :
    g'.LabelsCarry p := by
  have hlabels : (g.labels source target).value.Consists p := h.calls.labels source target
  simp only [Graph.addCall] at hadd
  split at hadd
  · rename_i items hitems
    cases hadd
    rw [hitems, Value.Consists.list_iff] at hlabels
    refine h.withValue _ (Value.Consists.list_iff.2 (fun item hitem => ?_))
      (fun g l hg hl => hg.setLabels source target hl)
    rcases List.mem_append.1 hitem with hitem | hitem
    · exact hlabels item hitem
    · exact List.mem_singleton.1 hitem ▸ hlabel
  · cases hadd

theorem addCallOnce {g' : Graph} {label : String} (h : g.LabelsCarry p) (hlabel : p (.str label))
    {source target : SourcePath} (hadd : g.addCallOnce source target label = .ok g') :
    g'.LabelsCarry p := by
  unfold Graph.addCallOnce at hadd
  split at hadd
  · cases hadd
  · cases hadd
    exact h
  · exact h.addCall hlabel hadd

/-- Labels are added behind those that are there. -/
theorem extendCustom (h : g.LabelsCarry p) (source target : Node) {methods : Value}
    (hmethods : methods.isTruthy = true → methods.Consists p) :
    (g.extendCustom source target methods).2.LabelsCarry p := by
  have hlabels : (g.customLabels source target).value.Consists p := h.custom.labels source target
  have hentered := h.setCustomLabels source target hlabels
  simp only [Graph.extendCustom]
  split
  · rename_i items hitems
    split
    · rename_i htruthy
      rcases hmethods htruthy with ⟨more, hmore, hnew⟩
      rw [hitems, Value.Consists.list_iff] at hlabels
      rw [hmore]
      -- The new list has the labels that were there and the given ones.
      refine hentered.withValue _ (Value.Consists.list_iff.2 (fun item hitem => ?_))
        (fun g l hg hl => hg.setCustomLabels source target hl)
      exact (List.mem_append.1 hitem).elim (hlabels item) (hnew item)
    · exact hentered
  · exact hentered

/-- Whether it succeeds or fails, adding an edge brings in the given labels only. -/
theorem addEdge (h : g.LabelsCarry p) (source target : Value) {methods : Value}
    (hmethods : methods.isTruthy = true → methods.Consists p) :
    (g.addEdge source target methods).2.LabelsCarry p := by
  unfold Graph.addEdge
  split
  · exact h
  · split
    · exact h
    · split
      · exact h
      · split
        · exact h
        · split
          · exact h.extendCustom _ _ hmethods
          · exact h

theorem deleteEdge (h : g.LabelsCarry p) (source target : Value) :
    (g.deleteEdge source target).2.LabelsCarry p := by
  rcases g.deleteEdge_graph source target with ⟨hidden, heq⟩
  rw [heq]
  constructor
  · cases g.callEdge? source target with
    | none => exact h.calls
    | some e => exact h.calls.removeEdge e
  · cases g.customEdge? source target with
    | none => exact h.custom
    | some e => exact (h.custom.removeEdge e).dropEmptyRow e.1

/-- New labels replace those of an edge. -/
theorem relabel (h : g.LabelsCarry p) (source target : Value) {labels : Value}
    (hlabels : labels.Consists p) : (g.relabel source target labels).2.LabelsCarry p := by
  unfold Graph.relabel
  cases g.callEdge? source target with
  | none =>
    cases g.customEdge? source target with
    | none => exact ⟨h.calls, h.custom⟩
    | some e => exact LabelsCarry.setCustomLabels ⟨h.calls, h.custom⟩ e.1 e.2 hlabels
  | some edge =>
    have hcall : ∀ l : Labels, l.value.Consists p → ∀ tie,
        ({ g with nextTie := tie }.setLabels edge.1 edge.2 l).LabelsCarry p :=
      fun l hl tie =>
        LabelsCarry.setLabels (g := { g with nextTie := tie }) ⟨h.calls, h.custom⟩ _ _ hl
    cases g.customEdge? source target with
    | none => exact hcall _ hlabels _
    | some e => exact (hcall _ hlabels _).setCustomLabels e.1 e.2 hlabels

theorem addNode (h : g.LabelsCarry p) (node classes color : Value) :
    (g.addNode node classes color).2.LabelsCarry p := by
  unfold Graph.addNode
  split
  · cases node.asKey with
    | ok key => exact ⟨h.calls, h.custom⟩
    | error e => exact h
  · exact h

/-- A restriction keeps labels or takes some of them, and a reduction keeps texts. -/
theorem selectable (hp : ∀ s, p (.str s)) : Selectable (Graph.LabelsCarry p) where
  showAll hg := ⟨hg.calls, hg.custom⟩
  restrict hg hr := by
    rcases bind_eq_ok hr with ⟨r, hkept, hr⟩
    cases hr
    refine ⟨Restriction.entered_ofGraph RowsCarry.empty ?_ hkept, hg.custom⟩
    intro t source row target l kept hrow hcell hkeeps ht
    refine ht.alter source target ?_
    have hl : l.value.Consists p := hg.calls _ hrow _ hcell
    cases hkeeps with
    | all => exact hl
    | named hitems hnamed =>
      rcases hl with ⟨items, hitems', hall⟩
      cases hitems.symm.trans hitems'
      exact Value.Consists.list_iff.2 (fun item hitem => hall item (hnamed item hitem))
  narrow _ hg' hkept :=
    ⟨Graph.entered_filterLabels RowsCarry.empty
      (fun _ ht texts _ => ht.alter _ _ (Value.Consists.ofNames hp texts)) hkept, hg'.custom⟩

end LabelsCarry

/-! ### Added nodes -/

/-- Added edges are no added nodes. -/
theorem customNodes_extendCustom (g : Graph) (source target : Node) (methods : Value) :
    (g.extendCustom source target methods).2.customNodes = g.customNodes := by
  simp only [extendCustom]
  split
  · split
    · cases methods.elements with
      | ok more =>
        simp only [withValue]
        split <;> rfl
      | error e => rfl
    · rfl
  · rfl

theorem customNodes_addEdge (g : Graph) (source target methods : Value) :
    (g.addEdge source target methods).2.customNodes = g.customNodes := by
  unfold addEdge
  split
  · rfl
  · split
    · rfl
    · split
      · rfl
      · split
        · rfl
        · split
          · exact g.customNodes_extendCustom _ _ methods
          · rfl

theorem customNodes_deleteEdge (g : Graph) (source target : Value) :
    (g.deleteEdge source target).2.customNodes = g.customNodes := by
  unfold deleteEdge
  cases edgeKey source target with
  | ok key => rfl
  | error e => rfl

theorem customNodes_relabel (g : Graph) (source target labels : Value) :
    (g.relabel source target labels).2.customNodes = g.customNodes := by
  unfold relabel
  cases g.callEdge? source target with
  | none =>
    cases g.customEdge? source target with
    | none => rfl
    | some e => rfl
  | some edge =>
    cases g.customEdge? source target with
    | none => rfl
    | some e => rfl

def ClassesCarry (p : Value → Prop) (g : Graph) : Prop :=
  ∀ e ∈ g.customNodes.entries, e.2.classes.Consists p

namespace ClassesCarry

theorem congr {g' : Graph} (h : g.ClassesCarry p) (hnodes : g'.customNodes = g.customNodes) :
    g'.ClassesCarry p := by
  unfold ClassesCarry
  rw [hnodes]
  exact h

/-- A new colour leaves the classes alone. -/
theorem recolor {t : Table Atom CustomNode} (h : ∀ e ∈ t.entries, e.2.classes.Consists p)
    (key : Atom) (color : Value) : ∀ e ∈ (recolor t key color).entries, e.2.classes.Consists p := by
  unfold Graph.recolor
  cases hget : t.get? key with
  | none => exact h
  | some node =>
    intro e he
    rcases Table.value_of_mem_set he with hvalue | he
    · rcases Table.entry_of_get? hget with ⟨key', hentry, -⟩
      rw [hvalue]
      exact h _ hentry
    · exact h e he

/-- A node may be added with classes of such values. -/
theorem addNode (h : g.ClassesCarry p) (node color : Value) {classes : Value}
    (hclasses : classes.isTruthy = true → classes.Consists p) :
    (g.addNode node classes color).2.ClassesCarry p := by
  unfold Graph.addNode
  split
  · cases node.asKey with
    | error e => exact h
    | ok key =>
      intro e he
      rcases Table.value_of_mem_set he with hvalue | he
      · rw [hvalue]
        dsimp only
        split
        · rename_i htruthy
          exact hclasses htruthy
        · exact Value.Consists.nil
      · exact h e he
  · exact h

end ClassesCarry

end Graph

/-! ## Operations -/

namespace Operation

variable {p : Value → Prop}

/-- The labels that an operation brings in consist of values as described. -/
def Gives (p : Value → Prop) : Operation → Prop
  | addEdge _ _ methods => methods.isTruthy = true → methods.Consists p
  | relabel _ _ labels => labels.Consists p
  | _ => True

/-- The classes that an operation gives to an added node consist of values as described. -/
def GivesClasses (p : Value → Prop) : Operation → Prop
  | addNode _ classes _ => classes.isTruthy = true → classes.Consists p
  | _ => True

/-- An edit that needs a key keeps what it keeps with every key. -/
theorem keyed_maintains {I : Graph → Prop} {κ : Type} (key? : Except Fault κ)
    {f : Graph → κ → Graph} (hf : ∀ g key, I g → I (f g key)) :
    Maintains I (onGraph (fun g => g.allOrNothing (do let key ← key?; return f g key)))
      (fun _ => True) :=
  Maintains.onGraph (fun g hg => Graph.keyed_keeps hg key? (fun key => hf g key hg))

/-- An edit whose answer is not looked at. -/
theorem discard_maintains {I : Graph → Prop} {edit : Graph → Except Fault Bool × Graph}
    (hedit : ∀ g, I g → I (edit g).2) :
    Maintains I (do let _ ← onGraph edit : Action Unit) (fun _ => True) :=
  Maintains.bind (Maintains.onGraph hedit) (fun _ _ => Maintains.pure trivial)

/-- An operation that brings in labels as described leaves no others. -/
theorem labelsCarry (hp : ∀ s, p (.str s)) {op : Operation} (hop : op.Gives p) :
    Maintains (Graph.LabelsCarry p) op.run (fun _ => True) := by
  cases op with
  | select ids => exact filterProject_maintains (Graph.LabelsCarry.selectable hp) ids
  | hideNode node => exact keyed_maintains node.asKey (fun g key hg => ⟨hg.calls, hg.custom⟩)
  | showNode node => exact keyed_maintains node.asKey (fun g key hg => ⟨hg.calls, hg.custom⟩)
  | setColor node color =>
    exact keyed_maintains node.asKey (fun g key hg => ⟨hg.calls, hg.custom⟩)
  | resetColor node => exact keyed_maintains node.asKey (fun g key hg => ⟨hg.calls, hg.custom⟩)
  | hideEdge source target =>
    exact keyed_maintains (Graph.edgeKey source target) (fun g key hg => ⟨hg.calls, hg.custom⟩)
  | showEdge source target =>
    exact keyed_maintains (Graph.edgeKey source target) (fun g key hg => ⟨hg.calls, hg.custom⟩)
  | deleteNode node =>
    exact keyed_maintains node.asKey
      (fun g key hg => ⟨hg.calls.detach _, hg.custom.detach _⟩)
  | addNode node classes color =>
    exact discard_maintains (fun g hg => hg.addNode node classes color)
  | deleteEdge source target => exact discard_maintains (fun g hg => hg.deleteEdge source target)
  | addEdge source target methods =>
    exact discard_maintains (fun g hg => hg.addEdge source target hop)
  | relabel source target labels =>
    exact Maintains.modifyGraph (fun g hg => hg.relabel source target hop)

/-- An operation that gives classes as described to added nodes leaves no others. -/
theorem classesCarry {op : Operation} (hop : op.GivesClasses p) :
    Maintains (Graph.ClassesCarry p) op.run (fun _ => True) := by
  have hselectable : Selectable (Graph.ClassesCarry p) := by
    refine ⟨⟨fun hg => hg, fun hg hr => ?_⟩, fun _ hg' _ => hg'⟩
    rcases bind_eq_ok hr with ⟨r, -, hr⟩
    cases hr
    exact hg
  cases op with
  | select ids => exact filterProject_maintains hselectable ids
  | hideNode node => exact keyed_maintains node.asKey (fun g key hg => hg)
  | showNode node => exact keyed_maintains node.asKey (fun g key hg => hg)
  | setColor node color =>
    exact keyed_maintains node.asKey (fun g key hg => Graph.ClassesCarry.recolor hg key color)
  | resetColor node =>
    exact keyed_maintains node.asKey (fun g key hg => Graph.ClassesCarry.recolor hg key _)
  | hideEdge source target =>
    exact keyed_maintains (Graph.edgeKey source target) (fun g key hg => hg)
  | showEdge source target =>
    exact keyed_maintains (Graph.edgeKey source target) (fun g key hg => hg)
  | deleteNode node =>
    exact keyed_maintains node.asKey (fun g key hg e he => hg e (List.mem_filter.1 he).1)
  | addNode node classes color =>
    exact discard_maintains (fun g hg => hg.addNode node color hop)
  | deleteEdge source target =>
    exact discard_maintains (fun g hg => hg.congr (g.customNodes_deleteEdge source target))
  | addEdge source target methods =>
    exact discard_maintains (fun g hg => hg.congr (g.customNodes_addEdge source target methods))
  | relabel source target labels =>
    exact Maintains.modifyGraph (fun g hg => hg.congr (g.customNodes_relabel source target labels))

end Operation

end JavaDeps
