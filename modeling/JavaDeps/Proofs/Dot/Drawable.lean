import JavaDeps.Proofs.CheckedSort
import JavaDeps.Proofs.Dot.Statements
import JavaDeps.Proofs.Metadata.Listed

/-!
# Which graphs can be drawn

Labels and the classes of added nodes may be any values. A drawing joins the classes of every node
that it shows, and sorts and joins the labels of every edge that it shows. This succeeds for texts,
and for nothing else.
-/

namespace JavaDeps

/-! ## Values with texts as elements -/

def AllTexts (items : List Value) : Prop := ∀ item ∈ items, ∃ s, item = .str s

def Value.IsTexts (v : Value) : Prop := ∃ items, v.elements = .ok items ∧ AllTexts items

theorem Value.ofNames_isTexts (names : List String) : (Value.ofNames names).IsTexts := by
  refine ⟨names.map .str, rfl, fun item hitem => ?_⟩
  rcases List.mem_map.1 hitem with ⟨s, -, rfl⟩
  exact ⟨s, rfl⟩

/-- Texts can be keys. -/
theorem AllTexts.mapM_asKey {items : List Value} (h : AllTexts items) :
    ∃ keys, items.mapM Value.asKey = .ok keys ∧ ∀ a ∈ keys, ∃ s, a = Atom.str s := by
  refine mapM_ok (fun item hitem => ?_)
  rcases h item hitem with ⟨s, rfl⟩
  exact ⟨.str s, rfl, s, rfl⟩

theorem allTexts_map_atom {atoms : List Atom} :
    AllTexts (atoms.map .atom) ↔ ∀ a ∈ atoms, ∃ s, a = Atom.str s := by
  simp [AllTexts, Value.str]

theorem allTexts_cons {item : Value} {rest : List Value} :
    AllTexts (item :: rest) ↔ (∃ s, item = .str s) ∧ AllTexts rest :=
  List.forall_mem_cons

namespace Value

/-- Texts are read off a list exactly if all its elements are texts. -/
theorem exists_textsFrom_iff {items : List Value} (place : Nat) :
    (∃ texts, textsFrom place items = .ok texts) ↔ AllTexts items := by
  induction items generalizing place with
  | nil => simp [textsFrom, AllTexts]
  | cons item rest ih =>
    rw [allTexts_cons, ← ih (place + 1)]
    constructor
    · rintro ⟨texts, htexts⟩
      unfold textsFrom at htexts
      split at htexts
      · rename_i s
        cases hrest : textsFrom (place + 1) rest with
        | error e =>
          rw [hrest] at htexts
          cases htexts
        | ok others => exact ⟨⟨s, rfl⟩, others, rfl⟩
      · cases htexts
    · rintro ⟨⟨s, rfl⟩, others, hrest⟩
      refine ⟨s :: others, ?_⟩
      simp only [textsFrom, hrest]
      rfl

/-- Exactly the values with texts as elements are joined. -/
theorem exists_texts_iff {v : Value} : (∃ texts, v.texts = .ok texts) ↔ v.IsTexts := by
  unfold texts IsTexts
  cases v.elements with
  | ok items => simpa using exists_textsFrom_iff 0
  | error e => simp

end Value

/-! ## Labels of edges -/

namespace Atom

/-- Texts are compared with texts only. -/
theorem str_iff_of_before (a b : Atom) (r : Bool) (h : a.before b = .ok r) :
    (∃ s, a = .str s) ↔ ∃ s, b = .str s := by
  cases a <;> cases b <;> simp_all [before, isNumber]

theorem comparable_of_str {atoms : List Atom} (h : ∀ a ∈ atoms, ∃ s, a = Atom.str s) :
    CheckedSort.Comparable before atoms := by
  intro a ha b hb
  rcases h a ha with ⟨s, rfl⟩
  rcases h b hb with ⟨t, rfl⟩
  exact ⟨Text.precedes s t, rfl⟩

end Atom

namespace Dot

variable {labels : Value}

theorem labelText_ok (h : labels.IsTexts) : ∃ text, labelText labels = .ok text := by
  rcases h with ⟨items, hitems, htexts⟩
  rcases htexts.mapM_asKey with ⟨keys, hkeys, hstr⟩
  have hset : ∀ a ∈ (SortedSet.ofList keys).toList, ∃ s, a = Atom.str s :=
    fun a ha => hstr a (SortedSet.mem_of_mem_ofList ha)
  rcases CheckedSort.sort_ok (Atom.comparable_of_str hset) with ⟨distinct, hsort, hperm⟩
  have hfirst : ∀ a ∈ distinct.take 3, ∃ s, a = Atom.str s :=
    fun a ha => hset a (hperm.mem_iff.1 (List.mem_of_mem_take ha))
  rcases (Value.exists_textsFrom_iff 0).2 (allTexts_map_atom.2 hfirst) with ⟨texts, hwritten⟩
  have hdistinct : distinctLabels labels = .ok distinct := by
    unfold distinctLabels
    simp only [hitems, bind, Except.bind, hkeys]
    exact hsort
  unfold labelText
  simp only [hdistinct, bind, Except.bind, hwritten]
  exact ⟨_, rfl⟩

/-- Only texts are joined to a label. -/
theorem isTexts_of_labelText {text : String} (h : labelText labels = .ok text) :
    labels.IsTexts := by
  rcases bind_eq_ok h with ⟨distinct, hdistinct, h⟩
  rcases bind_eq_ok h with ⟨texts, htexts, -⟩
  rcases bind_eq_ok hdistinct with ⟨items, hitems, hdistinct⟩
  rcases bind_eq_ok hdistinct with ⟨keys, hkeys, hsort⟩
  rcases CheckedSort.sort_uniform Atom.str_iff_of_before hsort with ⟨hperm, huniform⟩
  have hfirst := allTexts_map_atom.1 ((Value.exists_textsFrom_iff 0).1 ⟨texts, htexts⟩)
  -- The first labels are written as texts, and the others are of their kind.
  have hall : ∀ a ∈ distinct, ∃ s, a = Atom.str s := by
    cases distinct with
    | nil => simp
    | cons first rest =>
      have htext : ∃ s, first = Atom.str s := hfirst first (by simp)
      exact fun a ha => (huniform a ha first List.mem_cons_self).2 htext
  refine ⟨items, hitems, ?_⟩
  rw [Value.eq_of_mapM_asKey hkeys, allTexts_map_atom]
  intro a ha
  rcases SortedSet.exists_mem_ofList ha with ⟨b, hb, hsame⟩
  rcases hall b (hperm.mem_iff.2 hb) with ⟨s, rfl⟩
  exact ⟨s, Atom.str_beq.1 hsame⟩

/-- Exactly the labels that are texts are written. -/
theorem exists_labelText_iff : (∃ text, labelText labels = .ok text) ↔ labels.IsTexts :=
  ⟨fun ⟨_, h⟩ => isTexts_of_labelText h, labelText_ok⟩

/-- An edge can be drawn exactly if its labels, if any, are texts. -/
theorem exists_edgeStatement_iff {general style source target : String} :
    (∃ e, edgeStatement general style source target labels = .ok e) ↔
      (labels.isTruthy = true → labels.IsTexts) := by
  rw [← exists_labelText_iff]
  unfold edgeStatement
  by_cases hlabels : labels.isTruthy = true
  · cases labelText labels <;> simp [hlabels, bind, Except.bind, pure, Except.pure]
  · simp [hlabels, bind, Except.bind, pure, Except.pure]

end Dot

/-! ## Graphs -/

/-- The classes of every added node and the labels of every edge are texts, unless there are none or
they are not shown. -/
structure Graph.Drawable (g : Graph) : Prop where
  classes : ∀ n ∈ g.nodes.toList, g.hidesNode n.simpleName = false →
    ∀ custom, g.customNodes.get? (.str n.simpleName) = some custom →
      custom.classes.isTruthy = true → custom.classes.IsTexts
  labels : ∀ source target v, g.Runs source target v → g.hidesEdge source target = false →
    v.isTruthy = true → v.IsTexts

namespace Graph

variable {g : Graph}

theorem exists_nodeStatement_iff {n : Node} :
    (∃ st, Dot.nodeStatement g n = .ok st) ↔
      ∀ custom, g.customNodes.get? (.str n.simpleName) = some custom →
        custom.classes.isTruthy = true → custom.classes.IsTexts := by
  have hdetails : (∃ st, Dot.nodeStatement g n = .ok st) ↔
      ∃ details, Dot.nodeDetails g n n.simpleName = .ok details := by
    simp only [Dot.nodeStatement]
    cases Dot.nodeDetails g n n.simpleName <;> simp [bind, Except.bind, pure, Except.pure]
  rw [hdetails]
  unfold Dot.nodeDetails
  cases g.customNodes.get? (.str n.simpleName) with
  | none =>
    -- The classes of a file are names.
    cases n with
    | named a => simp
    | file p =>
      dsimp only
      cases g.declared.get? p <;> simp
  | some custom =>
    simp only [Option.some.injEq, forall_eq', ← Value.exists_texts_iff]
    by_cases hclasses : custom.classes.isTruthy = true
    · cases custom.classes.texts <;>
        simp [hclasses, bind, Except.bind, pure, Except.pure, Except.map]
    · simp [hclasses, bind, Except.bind, pure, Except.pure]

/-- All nodes can be drawn exactly if the classes of those that are shown are texts. -/
theorem exists_nodeStatements_iff :
    (∃ nodes, g.nodeStatements = .ok nodes) ↔
      ∀ n ∈ g.nodes.toList, g.hidesNode n.simpleName = false →
        ∀ custom, g.customNodes.get? (.str n.simpleName) = some custom →
          custom.classes.isTruthy = true → custom.classes.IsTexts := by
  unfold nodeStatements
  simp only [exists_mapM_iff, exists_nodeStatement_iff, List.mem_filter, Bool.not_eq_true', and_imp]

theorem exists_edgeStatementsOf_iff {general style : String}
    {edges : List (String × String × Value)} :
    (∃ drawn, Dot.edgeStatementsOf g general style edges = .ok drawn) ↔
      ∀ source target v, (source, target, v) ∈ edges → g.hidesEdge source target = false →
        v.isTruthy = true → v.IsTexts := by
  unfold Dot.edgeStatementsOf
  simp only [exists_mapM_iff, Dot.exists_edgeStatement_iff, List.mem_filter, Bool.not_eq_true',
    and_imp, Prod.forall]

/-- All edges can be drawn exactly if the labels of those that are shown are texts. -/
theorem exists_edgeStatements_iff :
    (∃ edges, g.edgeStatements = .ok edges) ↔
      ∀ source target v, g.Runs source target v → g.hidesEdge source target = false →
        v.isTruthy = true → v.IsTexts := by
  have hboth : (∃ edges, g.edgeStatements = .ok edges) ↔
      (∃ calls, g.callStatements = .ok calls) ∧ ∃ custom, g.customStatements = .ok custom := by
    unfold edgeStatements
    cases g.callStatements <;> cases g.customStatements <;>
      simp [bind, Except.bind, pure, Except.pure]
  rw [hboth]
  unfold callStatements customStatements
  simp only [exists_edgeStatementsOf_iff, runs_iff, or_imp, forall_and]

/-- Exactly the drawable graphs are drawn. -/
theorem exists_statements_iff : (∃ drawn, g.statements = .ok drawn) ↔ g.Drawable := by
  have hboth : (∃ drawn, g.statements = .ok drawn) ↔
      (∃ nodes, g.nodeStatements = .ok nodes) ∧ ∃ edges, g.edgeStatements = .ok edges := by
    unfold statements
    cases g.nodeStatements <;> cases g.edgeStatements <;>
      simp [bind, Except.bind, pure, Except.pure]
  rw [hboth, exists_nodeStatements_iff, exists_edgeStatements_iff]
  exact ⟨fun h => ⟨h.1, h.2⟩, fun h => ⟨h.classes, h.labels⟩⟩

end Graph

/-- Without page functions, a project is drawn exactly when its graph is. -/
theorem Project.exists_dotText_iff {p : Project} (hpages : p.pages.functions = []) :
    (∃ text, p.dotText = .ok text) ↔ p.graph.Drawable := by
  have hdrawn : ∀ lines, ∃ all, p.pages.drawInto lines = .ok all := by
    intro lines
    unfold PageLinks.drawInto
    rw [PageLinks.statements_of_functions_nil hpages]
    exact ⟨_, rfl⟩
  rw [← Graph.exists_statements_iff]
  unfold dotText dotLines Graph.dotLines
  cases p.graph.statements with
  | error e => simp [bind, Except.bind]
  | ok drawn =>
    cases p.depth with
    | plain => simp [bind, Except.bind, pure, Except.pure]
    | deep => simp [bind, Except.bind, pure, Except.pure]
    | paged =>
      rcases hdrawn (p.facts.drawInto (Dot.linesOf drawn)) with ⟨all, hall⟩
      simp [bind, Except.bind, pure, Except.pure, hall]

end JavaDeps
