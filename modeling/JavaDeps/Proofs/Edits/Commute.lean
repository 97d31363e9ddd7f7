import JavaDeps.Proofs.Edits.Refused
import JavaDeps.Proofs.Operations
import JavaDeps.Proofs.SortedSet

/-!
# Edits of different nodes

A node is deleted from all tables of a graph: with its rows, from the rows of other nodes, and with
what was set for it. An edit of another node does not touch these places, so it can be made before
or after the deletion.
-/

namespace JavaDeps

/-! ## Tables -/

/-- From a list the first members that pass two tests may be removed in any order, if no member
passes both. -/
theorem eraseP_comm {α : Type} {p q : α → Bool} (h : ∀ x, p x = true → q x = false) (xs : List α) :
    (xs.eraseP p).eraseP q = (xs.eraseP q).eraseP p := by
  induction xs with
  | nil => rfl
  | cons x rest ih =>
    by_cases hp : p x = true
    · simp [hp, h x hp]
    · by_cases hq : q x = true
      · simp [hp, hq]
      · simp [hp, hq, ih]

namespace Table

variable {α β : Type} [BEq α]

theorem erase_comm (t : Table α β) (k k' : α) : (t.erase k).erase k' = (t.erase k').erase k :=
  ext (by simp only [erase, filterKeys, List.filter_filter, Bool.and_comm])

variable [EquivBEq α] {k k' : α} (h : (k == k') = false)
include h

/-- A key may be removed before or after another one is written. -/
theorem erase_set_comm (t : Table α β) (v : β) : (t.set k v).erase k' = (t.erase k').set k v := by
  refine ext ?_
  rcases t with ⟨entries, distinct⟩
  simp only [set, erase, filterKeys]
  clear distinct
  induction entries with
  | nil => simp [setIn, h]
  | cons e rest ih =>
    by_cases hk : (e.1 == k) = true
    · -- The written entry is not the removed one.
      have hk' : (e.1 == k') = false := (BEq.congr_left hk).trans h
      simp [hk, hk', setIn]
    · by_cases hk' : (e.1 == k') = true
      · simp [hk, hk', setIn, ih]
      · simp [hk, hk', setIn, ih]

theorem get?_erase_of_ne (t : Table α β) : (t.erase k').get? k = t.get? k := by
  simp only [get?, erase, filterKeys, List.find?_filter]
  refine congrArg (Option.map Prod.snd) (congrArg (fun p => t.entries.find? p) (funext fun e => ?_))
  by_cases hk : (e.1 == k) = true
  · have hk' : (e.1 == k') = false := (BEq.congr_left hk).trans h
    simp [hk, hk']
  · simp [hk]

end Table

namespace SortedSet

variable {α : Type} [Ranked α]

theorem filter_comm (s : SortedSet α) (p q : α → Bool) :
    (s.filter p).filter q = (s.filter q).filter p :=
  ext (by simp only [filter, List.filter_filter, Bool.and_comm])

theorem erase_comm [BEq α] (s : SortedSet α) (x y : α) :
    (s.erase x).erase y = (s.erase y).erase x :=
  s.filter_comm _ _

end SortedSet

namespace Graph

/-- A node may be removed before or after another one is given a colour. -/
theorem erase_recolor_comm (t : Table Atom CustomNode) {key key' : Atom} (h : (key == key') = false)
    (color : Value) : (recolor t key color).erase key' = recolor (t.erase key') key color := by
  unfold recolor
  rw [Table.get?_erase_of_ne h]
  cases t.get? key with
  | none => rfl
  | some node => exact Table.erase_set_comm h t _

/-- The first members for two different keys may be removed in any order. -/
theorem eraseFirst_comm {α β : Type} [BEq α] {p q : α → Bool} (h : ∀ x, p x = true → q x = false)
    (t : Table α β) : eraseFirst p (eraseFirst q t) = eraseFirst q (eraseFirst p t) :=
  Table.ext (eraseP_comm (p := fun e : α × β => p e.1) (fun e => h e.1) t.entries).symm

/-- Two nodes may be taken out of a table of edges in any order. From a row with targets of both
names the first one of each name is removed, wherever the other one stands. -/
theorem detach_comm {α : Type} [BEq α] {p q : α → Bool} (h : ∀ x, p x = true → q x = false)
    (t : Table α (Targets α)) : detach p (detach q t) = detach q (detach p t) := by
  refine Table.ext ?_
  rcases t with ⟨entries, distinct⟩
  simp only [detach, Table.filterKeys, Table.mapValues]
  clear distinct
  induction entries with
  | nil => rfl
  | cons e rest ih =>
    by_cases hp : p e.1 = true
    · simp [hp, h e.1 hp, ih]
    · by_cases hq : q e.1 = true
      · simp [hp, hq, ih]
      · simp [hp, hq, ih, eraseFirst_comm h]

end Graph

/-! ## Edits -/

/-- An edit of a single node. -/
inductive NodeEdit where
  | delete
  | hide
  | unhide
  | setColor (color : Value)
  | resetColor
  | add (classes color : Value)

namespace NodeEdit

def on (node : Value) : NodeEdit → Operation
  | delete => .deleteNode node
  | hide => .hideNode node
  | unhide => .showNode node
  | setColor color => .setColor node color
  | resetColor => .resetColor node
  | add classes color => .addNode node classes color

def edited (g : Graph) (node : Value) : NodeEdit → Graph
  | delete => (g.deleteNode node).2
  | hide => (g.hideNode node).2
  | unhide => (g.showNode node).2
  | setColor color => (g.setColor node color).2
  | resetColor => (g.resetColor node).2
  | add classes color => (g.addNode node classes color).2

/-- An edit changes the graph of a session and nothing else. -/
theorem after_on (edit : NodeEdit) (node : Value) (s : Session) :
    (edit.on node).after s =
      { s with project := { s.project with graph := edit.edited s.project.graph node } } := by
  cases edit with
  | add classes color =>
    show ((onGraph _ >>= _ : Action Unit) s).2 = _
    rw [bind_run]
    unfold onGraph
    dsimp only [edited]
    rcases s.project.graph.addNode node classes color with ⟨e | added, g⟩ <;> rfl
  | _ => rfl

/-- A value that is no single one cannot name a node, and nothing is done. -/
theorem edited_of_asKey {node : Value} {e : Fault} (h : node.asKey = .error e) (edit : NodeEdit)
    (g : Graph) : edit.edited g node = g := by
  cases edit with
  | add classes color =>
    simp only [edited, Graph.addNode, h]
    split <;> rfl
  | delete => simp only [edited, Graph.deleteNode, h]; rfl
  | hide => simp only [edited, Graph.hideNode, h]; rfl
  | unhide => simp only [edited, Graph.showNode, h]; rfl
  | setColor color => simp only [edited, Graph.setColor, h]; rfl
  | resetColor => simp only [edited, Graph.resetColor, h]; rfl

theorem edited_add {node : Value} (key : Atom) (hkey : node = .atom key) (classes color : Value)
    (g : Graph) : (add classes color).edited g node =
      { g with customNodes := if node.isTruthy then
          g.customNodes.set key ⟨if classes.isTruthy then classes else .list [], color⟩
        else g.customNodes } := by
  subst hkey
  simp only [edited, Graph.addNode]
  split <;> rfl

/-- Both edits change every table in the order of the other's entries. -/
theorem edited_comm (g : Graph) {j k : Atom} (h : (k == j) = false) (edit : NodeEdit) :
    edit.edited (delete.edited g (.atom j)) (.atom k) =
      delete.edited (edit.edited g (.atom k)) (.atom j) := by
  cases edit with
  | delete =>
    -- No text is the name of both nodes.
    have hnames : ∀ name : String, (Value.atom j).isText name = true →
        (Value.atom k).isText name = false := by
      intro name hj
      refine Bool.eq_false_iff.2 (fun hk => ?_)
      have heq : (Value.atom j) = .atom k :=
        (Value.eq_str_of_isText hj).trans (Value.eq_str_of_isText hk).symm
      cases heq
      simp at h
    have hcalls := Graph.detach_comm (fun p : SourcePath => hnames p.stem) g.calls
    have hcustom := Graph.detach_comm (fun n : Node => hnames n.simpleName) g.customEdges
    have hhidden : (g.hiddenNodes.erase j).erase k = (g.hiddenNodes.erase k).erase j :=
      SortedSet.erase_comm g.hiddenNodes j k
    have hedges := SortedSet.filter_comm g.hiddenEdges
      (fun e => !e.1.equals j && !e.2.equals j) (fun e => !e.1.equals k && !e.2.equals k)
    exact (Graph.mk.injEq ..).mpr ⟨rfl, rfl, rfl, rfl, rfl, hcalls.symm, hhidden, hedges,
      Table.erase_comm g.colors j k, Table.erase_comm g.customNodes j k, hcustom.symm, rfl⟩
  | hide =>
    have hhidden := SortedSet.erase_insert_comm g.hiddenNodes h
    exact congrArg (fun s => { (delete.edited g (.atom j)) with hiddenNodes := s }) hhidden.symm
  | unhide =>
    have hhidden := SortedSet.erase_comm g.hiddenNodes j k
    exact congrArg (fun s => { (delete.edited g (.atom j)) with hiddenNodes := s }) hhidden
  | setColor color =>
    have hcolors := Table.erase_set_comm h g.colors color
    have hnodes := Graph.erase_recolor_comm g.customNodes h color
    exact (Graph.mk.injEq ..).mpr ⟨rfl, rfl, rfl, rfl, rfl, rfl, rfl, rfl, hcolors.symm,
      hnodes.symm, rfl, rfl⟩
  | resetColor =>
    have hcolors := Table.erase_comm g.colors j k
    have hnodes := Graph.erase_recolor_comm g.customNodes h (.str defaultColor)
    exact (Graph.mk.injEq ..).mpr ⟨rfl, rfl, rfl, rfl, rfl, rfl, rfl, rfl, hcolors, hnodes.symm,
      rfl, rfl⟩
  | add classes color =>
    rw [edited_add k rfl, edited_add k rfl]
    by_cases hnode : (Value.atom k).isTruthy = true
    · simp only [hnode, if_true]
      have hnodes := Table.erase_set_comm h g.customNodes
        ⟨if classes.isTruthy then classes else .list [], color⟩
      exact congrArg (fun t => { (delete.edited g (.atom j)) with customNodes := t }) hnodes.symm
    · simp only [hnode, Bool.false_eq_true, if_false]

end NodeEdit

/-- Deleting a node and editing another one commute: the sessions after both are the same, whichever
is done first. Files with one stem are one node here, so a node may have several rows and several
places in a row. -/
theorem node_edits_commute (s : Session) {a b : Value} (hab : ¬ a.Alike b) (edit : NodeEdit) :
    (edit.on b).after ((Operation.deleteNode a).after s) =
      (Operation.deleteNode a).after ((edit.on b).after s) := by
  have hdelete : ∀ t : Session, (Operation.deleteNode a).after t = (NodeEdit.delete.on a).after t :=
    fun _ => rfl
  simp only [hdelete, NodeEdit.after_on]
  cases ha : a.asKey with
  | error e => simp only [NodeEdit.edited_of_asKey ha]
  | ok j =>
    cases hb : b.asKey with
    | error e => simp only [NodeEdit.edited_of_asKey hb]
    | ok k =>
      -- Both nodes are keys, which are apart because the nodes do not compare as equal.
      have hkey : ∀ {v : Value} {key : Atom}, v.asKey = .ok key → v = .atom key := by
        intro v key h
        cases v <;> cases h
        rfl
      obtain rfl := hkey ha
      obtain rfl := hkey hb
      have hne : (k == j) = false := by
        refine Bool.eq_false_iff.2 (fun h => hab ?_)
        exact Value.atom_alike.2 ⟨k, rfl, BEq.symm h⟩
      rw [NodeEdit.edited_comm _ hne edit]

/-- `C` calls two files with the stem `A` and two with the stem `B`, which call each other. -/
def sharedStems : Session :=
  let targets : List String → Targets SourcePath := fun names =>
    .ofList (names.map (fun name => (SourcePath.ofText name, Labels.ofNames ["run"])))
  let calls : Table SourcePath (Targets SourcePath) :=
    .mk [(SourcePath.ofText "C.java", targets ["p/B.java", "q/B.java", "p/A.java", "q/A.java"]),
      (SourcePath.ofText "p/A.java", targets ["q/B.java"]),
      (SourcePath.ofText "p/B.java", targets ["q/A.java", "p/A.java"])]
  let start := Session.ofDisk default
  { start with project := { start.project with graph := { start.project.graph with calls } } }

/-- Deleting `A` and `B` leaves one file of each stem in the row of `C`, in either order. -/
theorem sharedStems_commute :
    ¬ (Value.str "A").Alike (.str "B") ∧
      (NodeEdit.delete.on (.str "B")).after ((Operation.deleteNode (.str "A")).after sharedStems) =
        (Operation.deleteNode (.str "A")).after
          ((NodeEdit.delete.on (.str "B")).after sharedStems) ∧
      (edgesOf ((NodeEdit.delete.on (.str "B")).after
        ((Operation.deleteNode (.str "A")).after sharedStems)).project.graph.calls).map
          (fun e => (e.source.toText, e.target.toText)) =
            [("C.java", "q/B.java"), ("C.java", "q/A.java")] := by
  have hne : ¬ (Value.str "A").Alike (.str "B") := by
    intro h
    have heq : Value.str "B" = .str "A" := Value.str_alike.1 h
    simp at heq
  exact ⟨hne, node_edits_commute sharedStems hne .delete, by decide⟩

end JavaDeps
