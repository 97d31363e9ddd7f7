import JavaDeps.Proofs.Dot.Drawable

/-!
# Graphs whose labels are texts

Labels and the classes of added nodes may be any values, and drawing or describing a graph fails on
those that cannot be gone through, compared or joined. With texts alone, neither fails. A
description already succeeds when the labels are single values of any kind.
-/

namespace JavaDeps

/-! ## Single values -/

/-- The value is neither a list nor a record. -/
def Value.IsSingle (v : Value) : Prop := ∃ a, v = .atom a

/-- A value of texts consists of single values. -/
theorem Value.IsTexts.single {v : Value} (h : v.IsTexts) : v.Consists IsSingle := by
  have hsingle : ∀ item : Value, (∃ s, item = .str s) → item.IsSingle := by
    rintro item ⟨s, rfl⟩
    exact ⟨.str s, rfl⟩
  exact Consists.mono h hsingle

/-! ## Gathered calls -/

namespace Calls

variable {c : Calls} {name : String} {labels : Value}

/-- All labels are single values. -/
def Simple (c : Calls) : Prop := ∀ e ∈ c.entries, ∀ item ∈ e.2, item.IsSingle

theorem empty_simple : Simple Table.empty := by
  intro e he
  cases he

theorem Simple.set (hc : c.Simple) {items : List Value} (hitems : ∀ item ∈ items, item.IsSingle) :
    Simple (Table.set c name items) := by
  intro e he
  rcases Table.mem_set he with rfl | he
  · exact hitems
  · exact hc e he

/-- Single values can be written over what a name has. -/
theorem replaceWith_ok (hc : c.Simple) (hlabels : labels.Consists Value.IsSingle) :
    ∃ c', c.replaceWith name labels = .ok c' ∧ c'.Simple := by
  rcases hlabels with ⟨items, hitems, hsingle⟩
  unfold replaceWith
  rw [Value.labelList_of_elements hitems]
  exact ⟨_, rfl, hc.set hsingle⟩

/-- Single values can be merged with what a name has. -/
theorem mergeWith_ok (hc : c.Simple) (hlabels : labels.Consists Value.IsSingle) :
    ∃ c', c.mergeWith name labels = .ok c' ∧ c'.Simple := by
  unfold mergeWith
  cases hpresent : c.get? name with
  | none => exact replaceWith_ok hc hlabels
  | some present =>
    rcases hlabels with ⟨items, hitems, hsingle⟩
    have hboth : ∀ item ∈ present ++ items, ∃ a, item.asKey = .ok a := by
      intro item hitem
      have hitem : item.IsSingle :=
        (List.mem_append.1 hitem).elim
          (hc _ (Table.mem_entries_of_get? hpresent) item) (hsingle item)
      rcases hitem with ⟨a, rfl⟩
      exact ⟨a, rfl⟩
    rcases exists_mapM_iff.2 hboth with ⟨keys, hkeys⟩
    simp only [hitems, bind, Except.bind, hkeys]
    -- What is listed then are keys.
    refine ⟨_, rfl, hc.set (fun item hitem => ?_)⟩
    rcases List.mem_map.1 hitem with ⟨a, -, rfl⟩
    exact ⟨a, rfl⟩

end Calls

/-- Calls and added edges whose labels are single values can be gathered. -/
theorem gatherCalls_ok {calls custom : List (String × Value)}
    (h : ∀ e ∈ calls ++ custom, e.2.Consists Value.IsSingle) :
    ∃ c, Graph.gatherCalls calls custom = .ok c := by
  have hcalls : ∀ e ∈ calls, e.2.Consists Value.IsSingle :=
    fun e he => h e (List.mem_append_left _ he)
  have hcustom : ∀ e ∈ custom, e.2.Consists Value.IsSingle :=
    fun e he => h e (List.mem_append_right _ he)
  rcases foldlM_ok (fun e he c hc => Calls.replaceWith_ok hc (hcalls e he)) Calls.empty_simple with
    ⟨c, hreplaced, hc⟩
  rcases foldlM_ok (fun e he c hc => Calls.mergeWith_ok hc (hcustom e he)) hc with ⟨c', hmerged, -⟩
  refine ⟨c', ?_⟩
  unfold Graph.gatherCalls
  rw [hreplaced]
  exact hmerged

/-! ## Drawings and descriptions -/

/-- The labels of all edges and the classes of all added nodes are texts. -/
structure Graph.Worded (g : Graph) : Prop where
  labels : ∀ source target v, g.Entry source target v → v.IsTexts
  classes : ∀ e ∈ g.customNodes.entries, e.2.classes.IsTexts

namespace Graph.Worded

variable {g : Graph} (h : g.Worded)
include h

theorem nodeStatement_ok (n : Node) : ∃ st, Dot.nodeStatement g n = .ok st := by
  refine exists_nodeStatement_iff.2 (fun custom hget _ => ?_)
  rcases Table.entry_of_get? hget with ⟨a, hentry, -⟩
  exact h.classes _ hentry

theorem drawable : g.Drawable where
  classes n _ _ := exists_nodeStatement_iff.1 (h.nodeStatement_ok n)
  labels source target v hruns _ _ := by
    rcases hruns with ⟨m, n, hentry, -⟩
    exact h.labels m n v hentry

/-- The drawing of the graph succeeds. -/
theorem statements_ok : ∃ drawn, g.statements = .ok drawn := exists_statements_iff.2 h.drawable

end Graph.Worded

/-- The labels of all edges are single values, and the classes of all added nodes can be listed. -/
structure Graph.Simple (g : Graph) : Prop where
  labels : ∀ source target v, g.Entry source target v → v.Consists Value.IsSingle
  classes : ∀ e ∈ g.customNodes.entries, ∃ items, e.2.classes.elements = .ok items

theorem Graph.Worded.simple {g : Graph} (h : g.Worded) : g.Simple where
  labels source target v hentry := (h.labels source target v hentry).single
  classes e he := (h.classes e he).imp (fun _ hitems => hitems.1)

namespace Graph.Simple

variable {g : Graph} (h : g.Simple)
include h

theorem fileInfo_ok (n : Node) : ∃ info, g.fileInfo n = .ok info := by
  have hclasses : ∃ listed, g.listedClasses n = .ok listed := by
    unfold listedClasses
    cases hcustom : g.customNodes.get? (.str n.simpleName) with
    | none =>
      cases n with
      | named a => exact ⟨_, rfl⟩
      | file p => exact ⟨_, rfl⟩
    | some custom =>
      rcases Table.entry_of_get? hcustom with ⟨a, hentry, -⟩
      rcases h.classes _ hentry with ⟨items, hitems⟩
      simp only [hitems]
      exact ⟨_, rfl⟩
  have hfrom : ∀ e ∈ g.callsFrom n ++ g.customFrom n, e.2.Consists Value.IsSingle := by
    intro e he
    rcases entry_of_mem_from he with ⟨source, target, hentry, -⟩
    exact h.labels _ _ _ hentry
  have hto : ∀ e ∈ g.callsTo n ++ g.customTo n, e.2.Consists Value.IsSingle := by
    intro e he
    rcases entry_of_mem_to he with ⟨source, target, hentry, -⟩
    exact h.labels _ _ _ hentry
  rcases hclasses with ⟨listed, hlisted⟩
  rcases gatherCalls_ok hfrom with ⟨outgoing, houtgoing⟩
  rcases gatherCalls_ok hto with ⟨incoming, hincoming⟩
  unfold fileInfo
  simp only [hlisted, bind, Except.bind, houtgoing, hincoming]
  exact ⟨_, rfl⟩

/-- The nodes of a simple graph can be described, in any order. -/
theorem fileInfos_ok (order : List Node) : ∃ files, g.fileInfos order = .ok files := by
  have hall : ∃ files, g.fileInfos order = .ok files ∧ True := by
    refine foldlM_ok (fun n _ t _ => ?_) trivial
    rcases h.fileInfo_ok n with ⟨info, hinfo⟩
    simp only [hinfo]
    exact ⟨_, rfl, trivial⟩
  exact hall.imp (fun _ hfiles => hfiles.1)

theorem customRows_ok : ∃ rows, g.customRows = .ok rows := by
  have hrow : ∀ e ∈ g.customEdges.entries, ∃ c, customRow e.2 = .ok c ∧ c.Simple := by
    intro e he
    refine foldlM_ok (fun f hf c hc => ?_) Calls.empty_simple
    exact Calls.replaceWith_ok hc (h.labels _ _ _ (.custom he hf))
  have hall : ∃ rows, g.customRows = .ok rows ∧ True := by
    refine foldlM_ok (fun e he t _ => ?_) trivial
    rcases hrow e he with ⟨c, hc, -⟩
    simp only [hc]
    exact ⟨_, rfl, trivial⟩
  exact hall.imp (fun _ hrows => hrows.1)

/-- The description of the graph succeeds, and lists the descriptions of its nodes. -/
theorem describe_ok {order : List Node} {files : Table String FileInfo}
    (hfiles : g.fileInfos order = .ok files) (directory : String) :
    ∃ data, g.describe directory order = .ok data ∧
      data.field? "files" = some (.obj (files.mapValues FileInfo.toValue).entries) := by
  rcases h.customRows_ok with ⟨rows, hrows⟩
  unfold describe
  rw [hrows, hfiles]
  exact ⟨_, rfl, rfl⟩

end Graph.Simple

end JavaDeps
