import JavaDeps.Proofs.Edits.Deleted

/-!
# What deletions spare

A node is deleted by its name, and so is an edge. Whatever does not have the name stays as it is,
with its labels and in its place, and nothing is added.
-/

namespace JavaDeps

/-! ## Edges at a node -/

section

variable {α : Type} [BEq α]

def linksOf (t : Table α (Targets α)) : List (α × α × Labels) :=
  t.entries.flatMap (fun e => e.2.entries.map (fun f => (e.1, f)))

/-- A table without the rows of a node and without some of the edges to it. All other edges are
there, in the same order. -/
structure Thins (isNode : α → Bool) (t t' : Table α (Targets α)) : Prop where
  rows : t'.keys = t.keys.filter (fun x => !isNode x)
  fewer : (linksOf t').Sublist (linksOf t)
  others : (linksOf t').filter (fun e => !isNode e.1 && !isNode e.2.1) =
    (linksOf t).filter (fun e => !isNode e.1 && !isNode e.2.1)

/-- Members that a filter drops anyway may be removed before. -/
theorem filter_eraseP {β : Type} {p q : β → Bool}
    (h : ∀ x, p x = true → q x = false) (xs : List β) :
    (xs.eraseP p).filter q = xs.filter q := by
  induction xs with
  | nil => rfl
  | cons x rest ih =>
    by_cases hx : p x = true
    · rw [List.eraseP_cons_of_pos hx, List.filter_cons_of_neg (Bool.eq_false_iff.1 (h x hx))]
    · rw [List.eraseP_cons_of_neg hx, List.filter_cons, List.filter_cons, ih]

/-- Taking out a node thins a table at this node. -/
theorem Graph.detach_thins (isNode : α → Bool) (t : Table α (Targets α)) :
    Thins isNode t (detach isNode t) := by
  rcases t with ⟨entries, distinct⟩
  refine ⟨?_, ?_, ?_⟩
  · simp [detach, Table.filterKeys, Table.mapValues, Table.keys, List.filter_map, Function.comp_def]
  · simp only [linksOf, detach, Table.filterKeys, Table.mapValues]
    clear distinct
    induction entries with
    | nil => exact List.Sublist.refl _
    | cons e rest ih =>
      by_cases he : isNode e.1 = true
      · simpa [he] using ih.trans (List.sublist_append_right _ _)
      · have hrow : ((eraseFirst isNode e.2).entries.map (fun f => (e.1, f))).Sublist
            (e.2.entries.map (fun f => (e.1, f))) := List.eraseP_sublist.map _
        simpa [he] using hrow.append ih
  · simp only [linksOf, detach, Table.filterKeys, Table.mapValues]
    clear distinct
    induction entries with
    | nil => rfl
    | cons e rest ih =>
      -- Of the edges from another node, the one that is taken out ends at the node.
      have hrow := filter_eraseP (p := fun f : α × Labels => isNode f.1) (q := fun f => !isNode f.1)
        (fun f hf => by simp [hf]) e.2.entries
      by_cases he : isNode e.1 = true <;>
        simp_all [eraseFirst, List.filter_map, Function.comp_def]

end

/-! ## One edge -/

/-- A table without one edge between nodes of the given kinds. All else stays in its place; a row
that is left without edges may be dropped. -/
def TakesOut {α : Type} [BEq α] (isSource isTarget : α → Prop) (dropsEmpty : Bool)
    (t t' : Table α (Targets α)) : Prop :=
  ∃ front rest x row row' first y l more, isSource x ∧ isTarget y ∧
    row.entries = first ++ (y, l) :: more ∧ row'.entries = first ++ more ∧
    t.entries = front ++ (x, row) :: rest ∧
    t'.entries = front ++ (if dropsEmpty && row'.isEmpty then rest else (x, row') :: rest)

namespace Table

variable {α β : Type} [BEq α] [EquivBEq α] {t : Table α β}
  {front rest : List (α × β)} {k : α} {v : β}
  (h : t.entries = front ++ (k, v) :: rest)
include h

/-- The key of an entry stands in no other one. -/
theorem other_keys : (∀ e ∈ front, (e.1 == k) = false) ∧ ∀ e ∈ rest, (e.1 == k) = false := by
  have hdistinct := t.distinct
  rw [h, DistinctKeys, List.map_append, List.map_cons] at hdistinct
  rcases List.pairwise_append.1 hdistinct with ⟨-, hrest, hfront⟩
  refine ⟨fun e he => hfront _ (List.mem_map_of_mem he) k List.mem_cons_self, fun e he => ?_⟩
  rw [BEq.comm]
  exact (List.pairwise_cons.1 hrest).1 _ (List.mem_map_of_mem he)

/-- Writing to a key that is there keeps all in place. -/
theorem entries_set_present (v' : β) : (t.set k v').entries = front ++ (k, v') :: rest := by
  have hfront := (other_keys h).1
  simp only [set, h]
  clear h
  induction front with
  | nil => simp [setIn]
  | cons e front ih =>
    rcases List.forall_mem_cons.1 hfront with ⟨he, hfront⟩
    simp [setIn, he, ih hfront]

theorem entries_erase_present : (t.erase k).entries = front ++ rest := by
  have hkept : ∀ {es : List (α × β)}, (∀ e ∈ es, (e.1 == k) = false) →
      es.filter (fun e => !(e.1 == k)) = es :=
    fun hes => List.filter_eq_self.2 (fun e he => by rw [hes e he]; rfl)
  rcases other_keys h with ⟨hfront, hrest⟩
  simp only [erase, filterKeys, h]
  rw [List.filter_append, List.filter_cons_of_neg (by simp), hkept hfront, hkept hrest]

theorem getD_present (init : β) : t.getD k init = v := by
  have hmem : (k, v) ∈ t.entries := h ▸ List.mem_append_right _ List.mem_cons_self
  rw [getD, get?_of_mem_equal hmem BEq.rfl, Option.getD_some]

end Table

/-- The edge that is found is taken out, and a row that is left without edges may be dropped. -/
theorem Graph.takesOut_of_findEdge {α : Type} [BEq α] [EquivBEq α] {t : Table α (Targets α)}
    {isSource isTarget : α → Bool} {e : α × α} (hfound : findEdge isSource isTarget t = some e) :
    TakesOut (isSource · = true) (isTarget · = true) false t (removeEdge t e) ∧
      TakesOut (isSource · = true) (isTarget · = true) true t
        (dropEmptyRow (removeEdge t e) e.1) := by
  rcases e with ⟨x, y⟩
  rcases joins_of_findEdge hfound with ⟨hx, hy, l, row, hrow, hl⟩
  rcases List.append_of_mem hl with ⟨first, more, hcells⟩
  rcases List.append_of_mem hrow with ⟨front, rest, hrows⟩
  have hremoved : (removeEdge t (x, y)).entries = front ++ (x, row.erase y) :: rest := by
    rw [removeEdge, Table.getD_present hrows, Table.entries_set_present hrows]
  have hleft := Table.entries_erase_present hcells
  refine ⟨⟨front, rest, x, row, row.erase y, first, y, l, more, hx, hy, hcells, hleft,
    hrows, hremoved⟩,
    ⟨front, rest, x, row, row.erase y, first, y, l, more, hx, hy, hcells, hleft, hrows, ?_⟩⟩
  rw [dropEmptyRow, Table.getD_present hremoved, Bool.true_and]
  split
  · exact Table.entries_erase_present hremoved
  · exact hremoved

/-! ## Deletions -/

/-- The name of a file is its stem, and that of another node is its own one. -/
def Node.Called (n : Node) (name : String) : Prop :=
  match n with
  | .file p => p.stem = name
  | .named a => a = .str name

theorem Atom.beq_str (a : Atom) (s : String) : (a == .str s) = decide (a = .str s) := by
  rw [BEq.comm, Bool.eq_iff_iff, decide_eq_true_iff, Atom.str_beq]

theorem Atom.equals_str (a : Atom) (s : String) : a.equals (.str s) = decide (a = .str s) := by
  unfold Atom.equals
  rw [Atom.beq_str]
  by_cases ha : a = .str s
  · have hnumber : (a == .decimal .nan) = false := by
      rw [ha]
      exact Bool.eq_false_iff.2 (fun h => by cases Atom.str_beq.1 h)
    rw [hnumber, Bool.not_false, Bool.and_true]
  · simp [ha]

/-- A text names the nodes that are called so. -/
theorem Node.isNamed_str {n : Node} {name : String} :
    n.isNamed (.str name) = true ↔ n.Called name := by
  cases n with
  | file p => exact beq_iff_eq.trans eq_comm
  | named a =>
    show a.equals (.str name) = true ↔ a = .str name
    rw [Atom.equals_str, decide_eq_true_iff]

theorem TakesOut.imp {α : Type} [BEq α] {p q p' q' : α → Prop} {drops : Bool}
    {t t' : Table α (Targets α)}
    (h : TakesOut p q drops t t') (hp : ∀ x, p x → p' x) (hq : ∀ x, q x → q' x) :
    TakesOut p' q' drops t t' := by
  rcases h with ⟨front, rest, x, row, row', first, y, l, more, hx, hy, hentries⟩
  exact ⟨front, rest, x, row, row', first, y, l, more, hp x hx, hq y hy, hentries⟩

/-- Deleting a node takes out its rows and edges to it, and what was set for its name; deleting an
edge takes out at most one call and one added edge between the names, and tells whether there was
one, and shows the edge again. Everything else in the graph stays as it was. -/
theorem deletions_spare_others (g : Graph) :
    (∀ name, ∃ g', g.deleteNode (.str name) = (.ok (), g') ∧
      Thins (fun p => p.stem == name) g.calls g'.calls ∧
      Thins (fun n => n.simpleName == name) g.customEdges g'.customEdges ∧
      g' = { g with
        calls := g'.calls
        customEdges := g'.customEdges
        customNodes := g.customNodes.filterKeys (fun key => key ≠ .str name)
        colors := g.colors.filterKeys (fun key => key ≠ .str name)
        hiddenNodes := g.hiddenNodes.filter (fun n => n ≠ .str name)
        hiddenEdges := g.hiddenEdges.filter (fun e => e.1 ≠ .str name ∧ e.2 ≠ .str name) }) ∧
    ∀ a b, ∃ isCall isCustom g', g.deleteEdge (.str a) (.str b) = (.ok (isCall || isCustom), g') ∧
      (if isCall then TakesOut (fun p => p.stem = a) (fun q => q.stem = b) false g.calls g'.calls
        else g'.calls = g.calls) ∧
      (if isCustom then
          TakesOut (fun m => m.Called a) (fun n => n.Called b) true g.customEdges g'.customEdges
        else g'.customEdges = g.customEdges) ∧
      g' = { g with
        calls := g'.calls
        customEdges := g'.customEdges
        hiddenEdges := g.hiddenEdges.filter (fun e => e ≠ (.str a, .str b)) } := by
  constructor
  · intro name
    -- The tables of edges are thinned out; all else of the graph is taken out by the name itself.
    have hcomm : ∀ s : String, (name == s) = (s == name) := fun s => BEq.comm
    refine ⟨_, rfl, ?_, ?_, ?_⟩
    · simpa [Value.isText, hcomm] using Graph.detach_thins
        (fun p : SourcePath => name == p.stem) g.calls
    · simpa [Value.isText, hcomm] using
        Graph.detach_thins (fun n : Node => name == n.simpleName) g.customEdges
    · simp [Table.erase, SortedSet.erase, SortedSet.filter, Atom.beq_str, Atom.equals_str]
  · intro a b
    -- Whether an edge is found in either table decides what becomes of that table.
    refine ⟨(g.callEdge? (.str a) (.str b)).isSome,
      (g.customEdge? (.str a) (.str b)).isSome, _, rfl, ?_, ?_, ?_⟩
    · cases hfound : g.callEdge? (.str a) (.str b) with
      | none => rfl
      | some e =>
        exact (Graph.takesOut_of_findEdge hfound).1.imp (fun p hp => (eq_of_beq hp).symm)
          (fun q hq => (eq_of_beq hq).symm)
    · cases hfound : g.customEdge? (.str a) (.str b) with
      | none => rfl
      | some e =>
        exact (Graph.takesOut_of_findEdge hfound).2.imp (fun m => Node.isNamed_str.1)
          (fun n => Node.isNamed_str.1)
    · have hpair : ∀ e : Atom × Atom, (e == (.str a, .str b)) = decide (e = (.str a, .str b)) := by
        rintro ⟨x, y⟩
        show (x == .str a && y == .str b) = _
        simp [Atom.beq_str]
      simp [SortedSet.erase, SortedSet.filter, hpair]

/-- Two files have the name of the node that is deleted, and the first of the two calls to them is
the edge that is. -/
theorem mixedGraph_spared :
    (∃ g', mixedGraph.deleteNode (.str "B") = (.ok (), g') ∧
      Thins (fun p => p.stem == "B") mixedGraph.calls g'.calls) ∧
    ∃ g', mixedGraph.deleteEdge (.str "A") (.str "B") = (.ok true, g') ∧
      TakesOut (fun p => p.stem = "A") (fun q => q.stem = "B") false mixedGraph.calls g'.calls := by
  constructor
  · rcases (deletions_spare_others mixedGraph).1 "B" with ⟨g', hdeleted, hthins, -⟩
    exact ⟨g', hdeleted, hthins⟩
  · rcases (deletions_spare_others mixedGraph).2 "A" "B" with
      ⟨isCall, isCustom, g', hdeleted, hcalls, -⟩
    have hchanged : (mixedGraph.deleteEdge (.str "A") (.str "B")).2.calls.values.map Table.keys ≠
        mixedGraph.calls.values.map Table.keys := by decide +kernel
    rw [hdeleted] at hchanged
    cases isCall with
    | true => exact ⟨g', hdeleted, hcalls⟩
    | false => exact absurd (congrArg (fun t => t.values.map Table.keys) hcalls) hchanged

end JavaDeps
