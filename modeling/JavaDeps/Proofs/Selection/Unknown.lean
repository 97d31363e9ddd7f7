import JavaDeps.Proofs.Selection.History
import JavaDeps.Proofs.Selection.Removed

/-!
# Ids of unknown classes

An id may name a class that the graph does not list, as one from a page that was loaded before an
earlier selection. Such a class has no file and, since all classes of connected files are listed, no
edge. It counts as chosen, though, when the chosen classes are compared with four fifths of all
classes.
-/

namespace JavaDeps

namespace Graph

/-- The graphs list the same classes with the same files, know the same classes of every file, and
have the same edges with the same labels. -/
structure SameContents (g g' : Graph) : Prop extends SameView g g' where
  declared : ∀ file, g.declared.get? file = g'.declared.get? file

namespace SameContents

variable {g g' g'' : Graph}

theorem refl (g : Graph) : g.SameContents g := ⟨SameView.refl g, fun _ => rfl⟩

theorem symm (h : g.SameContents g') : g'.SameContents g :=
  ⟨⟨fun name => (h.classes name).symm, fun source target => (h.edges source target).symm⟩,
    fun file => (h.declared file).symm⟩

theorem trans (h : g.SameContents g') (h' : g'.SameContents g'') : g.SameContents g'' :=
  ⟨⟨fun name => (h.classes name).trans (h'.classes name),
    fun source target => (h.edges source target).trans (h'.edges source target)⟩,
    fun file => (h.declared file).trans (h'.declared file)⟩

/-- What was hidden plays no part. -/
theorem of_whole (h : g' = g ∨ g' = g.showAll) : g'.SameContents g := by
  rcases h with rfl | rfl
  · exact refl _
  · exact ⟨⟨fun _ => rfl, fun _ _ => rfl⟩, fun _ => rfl⟩

end SameContents

namespace Ordered

variable {g : Graph} (h : g.Ordered) {chosen chosen' : NameSet}
  (hchosen : ∀ name ∈ g.classes.keys, chosen.contains name = chosen'.contains name)

include hchosen

/-- Only the chosen names that are listed matter for the classes. -/
theorem keepClasses_congr :
    Restriction.keepClasses g chosen = Restriction.keepClasses g chosen' := by
  rw [Restriction.keepClasses_eq, Restriction.keepClasses_eq]
  refine List.foldl_ext _ _ _ (fun r e he => ?_)
  rw [Restriction.keepClass, Restriction.keepClass, hchosen e.1 (List.mem_map_of_mem he)]

include h

/-- An edge is kept or not, whatever unlisted classes are chosen. -/
theorem keptNames_congr (calls : NameSet) {e : Edge} (he : e ∈ edgesOf g.calls) :
    g.keptNames chosen calls e = g.keptNames chosen' calls e := by
  have hdeclares : ∀ file ∈ [e.source, e.target], Restriction.declaresChosen g chosen file =
      Restriction.declaresChosen g chosen' file := by
    intro file hfile
    have hlisted := h.listed file (List.mem_flatMap.2 ⟨e, he, hfile⟩)
    rw [Restriction.declaresChosen, Restriction.declaresChosen, Bool.eq_iff_iff, List.any_eq_true,
      List.any_eq_true]
    refine exists_congr (fun name => and_congr_right (fun hname => ?_))
    rw [hchosen name (hlisted name (SortedSet.contains_iff.2 hname))]
  rw [keptNames, keptNames, hdeclares e.source (by simp), hdeclares e.target (by simp)]

/-- Only the chosen names that are listed matter for a restriction. -/
theorem restricted_congr (calls : NameSet) :
    g.restricted chosen calls = g.restricted chosen' calls := by
  have hedges : g.keptEdges chosen calls = g.keptEdges chosen' calls :=
    relabelEdges_congr (fun e he => h.keptNames_congr hchosen calls he)
  have hshown : g.shown chosen calls = g.shown chosen' calls := by
    rw [shown, shown, hedges, keepClasses_congr hchosen]
  -- A table of an analysis is determined by the list of its edges.
  have hcalls : (g.restricted chosen calls).calls = (g.restricted chosen' calls).calls := by
    rw [← (restricted_callsIn h.calls_in chosen calls).foldl_enterEdge,
      ← (restricted_callsIn h.calls_in chosen' calls).foldl_enterEdge, edgesOf_restricted,
      edgesOf_restricted, hedges]
  unfold Graph.restricted at hcalls ⊢
  rw [hshown]
  exact congrArg (fun t => { g with
    classes := (g.shown chosen' calls).classes
    declared := (g.shown chosen' calls).declared
    closed := true
    calls := t
    hiddenNodes := SortedSet.empty
    hiddenEdges := SortedSet.empty }) hcalls

end Ordered

end Graph

/-! ## Further ids of classes -/

namespace Choice

theorem classOf?_classMark (name : String) : classOf? (classMark ++ name) = some name := by
  have hstarts := starts_append classMark name
  have happend := congrArg String.toList (append_dropChars_of_starts hstarts)
  rw [String.toList_append, String.toList_append] at happend
  rw [classOf?, if_pos hstarts]
  exact congrArg some (String.toList_injective (List.append_cancel_left happend))

/-- Further ids of classes add these classes, and choose neither calls nor page functions. -/
theorem ofIds_append {ids extra : List String} (h : ∀ id ∈ extra, Text.starts id classMark = true) :
    ofIds (ids ++ extra) = { ofIds ids with
      classes := (ofIds ids).classes.insertAll (extra.filterMap classOf?) } := by
  have hcalls : extra.filterMap namedCall? = [] := by
    refine List.filterMap_eq_nil_iff.2 (fun id hid => if_neg ?_)
    simp [starts_eq_false (h id hid) callMark (by decide)]
  have hpages : extra.filter (fun id => Text.starts id pageMark) = [] := by
    refine List.filter_eq_nil_iff.2 (fun id hid => ?_)
    simp [starts_eq_false (h id hid) pageMark (by decide)]
  rw [ofIds_eq, ofIds_eq, List.filterMap_append, List.filterMap_append, List.filter_append, hcalls,
    hpages, List.append_nil, List.append_nil]
  exact congrArg (Choice.mk · _ _) (SortedSet.insertAll_append _ _ _)

end Choice

namespace Session

variable {s : Session} {ids extra : List String} {known : String}

/-- Beside a chosen class, further ids of classes do not change what page functions bring in. -/
theorem chosenBy_append (hknown : Choice.classMark ++ known ∈ ids)
    (hextra : ∀ id ∈ extra, Text.starts id Choice.classMark = true) :
    s.chosenBy (ids ++ extra) = (s.chosenBy ids).insertAll (extra.filterMap Choice.classOf?) := by
  have hsome : ∀ names, ((Choice.ofIds ids).classes.insertAll names).isEmpty = false := by
    intro names
    have hmem : known ∈ ((Choice.ofIds ids).classes.insertAll names).toList := by
      rw [Choice.ofIds_eq, SortedSet.mem_insertAll, SortedSet.mem_ofList]
      exact Or.inl (List.mem_filterMap.2 ⟨_, hknown, Choice.classOf?_classMark known⟩)
    rw [SortedSet.isEmpty, List.isEmpty_eq_false_iff]
    exact List.ne_nil_of_mem hmem
  have hpages : s.pageClasses (Choice.ofIds (ids ++ extra)) = s.pageClasses (Choice.ofIds ids) := by
    rw [Choice.ofIds_append hextra, pageClasses, pageClasses, hsome, ← hsome []]
    rfl
  rw [chosenBy, chosenBy, hpages, Choice.ofIds_append hextra, ← SortedSet.insertAll_append,
    ← SortedSet.insertAll_append]
  exact SortedSet.insertAll_perm List.perm_append_comm _

/-- Ids that keep the whole graph still do so with further ids of classes. -/
theorem KeepsWhole.append (h : s.KeepsWhole ids) (hknown : Choice.classMark ++ known ∈ ids)
    (hextra : ∀ id ∈ extra, Text.starts id Choice.classMark = true) :
    s.KeepsWhole (ids ++ extra) := by
  have hall := h.resolve_left (List.ne_nil_of_mem hknown)
  have hnodup : (s.chosenBy ids).toList.Nodup := by
    rw [chosenBy, Choice.ofIds_eq]
    exact SortedSet.nodup_insertAll (SortedSet.nodup_insertAll (s := .empty) List.nodup_nil _) _
  have hsize : (s.chosenBy ids).size ≤ (s.chosenBy (ids ++ extra)).size := by
    rw [chosenBy_append hknown hextra]
    exact (hnodup.subperm (fun name hname => SortedSet.mem_insertAll.2 (Or.inl hname))).length_le
  refine Or.inr ?_
  rw [keepsAll, decide_eq_true_eq] at hall ⊢
  omega

end Session

/-! ## Selections -/

/-- Beside a class that the graph lists, ids of unlisted classes make a difference exactly if they
bring the chosen classes up to four fifths of all classes and the selection alone drops something.
-/
theorem unknown_ids_iff (s : Session) (h : s.Analysed) (ids extra : List String)
    (hids : s.Reads ids)
    (hknown : ∃ name ∈ s.project.graph.classes.keys, Choice.classMark ++ name ∈ ids)
    (hextra : ∀ id ∈ extra, ∃ name, id = Choice.classMark ++ name ∧
      name ∉ s.project.graph.classes.keys) :
    ∃ t u, filterGraph (Value.ofNames ids) s = (.ok (), t) ∧
      filterGraph (Value.ofNames (ids ++ extra)) s = (.ok (), u) ∧
      (t.project.graph.SameContents u.project.graph ↔
        s.KeepsWhole ids ∨ ¬ s.KeepsWhole (ids ++ extra) ∨
          t.project.graph.SameContents s.project.graph) := by
  rcases hknown with ⟨known, -, hknown⟩
  have hclasses : ∀ id ∈ extra, Text.starts id Choice.classMark = true := by
    intro id hid
    rcases hextra id hid with ⟨name, rfl, -⟩
    exact starts_append _ _
  have hreads : s.Reads (ids ++ extra) := by
    refine hids.imp_left (fun hpages id hid => ?_)
    rcases List.mem_append.1 hid with hid | hid
    · exact hpages id hid
    · exact Choice.starts_eq_false (hclasses id hid) _ (by decide)
  rcases h.filterGraph_leads ids hids with ⟨t, ht, hwhole, hrestricted⟩
  rcases h.filterGraph_leads _ hreads with ⟨u, hu, hwhole', hrestricted'⟩
  refine ⟨t, u, ht, hu, ?_⟩
  -- The unknown ids count towards four fifths of the classes, so they can only make the selection
  -- keep the whole graph. Otherwise they choose nothing.
  by_cases hkeeps' : s.KeepsWhole (ids ++ extra)
  · have hsame : u.project.graph.SameContents s.project.graph := .of_whole (hwhole' hkeeps')
    by_cases hkeeps : s.KeepsWhole ids
    · exact iff_of_true ((Graph.SameContents.of_whole (hwhole hkeeps)).trans hsame.symm)
        (Or.inl hkeeps)
    · simp only [hkeeps, hkeeps', not_true_eq_false, false_or]
      exact ⟨fun h => h.trans hsame, fun h => h.trans hsame.symm⟩
  · have hkeeps : ¬ s.KeepsWhole ids := fun hkeeps => hkeeps' (hkeeps.append hknown hclasses)
    have hchosen : ∀ name ∈ s.project.graph.classes.keys,
        (s.chosenBy ids).contains name = (s.chosenBy (ids ++ extra)).contains name := by
      intro name hname
      rw [Session.chosenBy_append hknown hclasses, Bool.eq_iff_iff, SortedSet.contains_iff,
        SortedSet.contains_iff, SortedSet.mem_insertAll]
      refine (or_iff_left (fun hmem => ?_)).symm
      rcases List.mem_filterMap.1 hmem with ⟨id, hid, hclass⟩
      rcases hextra id hid with ⟨other, rfl, hother⟩
      rw [Choice.classOf?_classMark] at hclass
      exact hother (Option.some.inj hclass ▸ hname)
    refine iff_of_true ?_ (Or.inr (Or.inl hkeeps'))
    rw [hrestricted hkeeps, hrestricted' hkeeps', Choice.ofIds_append hclasses,
      h.ordered.restricted_congr hchosen]
    exact Graph.SameContents.refl _

/-- Two of three classes are too few to keep the whole graph, even if one of them is unknown. -/
theorem unknown_id_among_three :
    ∃ t u v, (do openProject .plain "."; analyze : Action Unit) (Session.ofDisk rivalFiles) =
        (.ok (), t) ∧
      filterGraph (Value.ofNames ["class_B"]) t = (.ok (), u) ∧
      filterGraph (Value.ofNames ["class_B", "class_X"]) t = (.ok (), v) ∧
      u.project.graph.SameContents v.project.graph := by
  rcases analyze_plain_run "." (Session.ofDisk rivalFiles) with ⟨t, hrun, -, hgraph⟩
  have hkeys : t.project.graph.classes.keys = ["C", "B", "D"] := by
    rw [hgraph]
    decide +kernel
  have hsize : t.project.graph.classes.size = 3 := by
    rw [Table.size, ← List.length_map, ← Table.keys, hkeys]
    rfl
  have hfew : ¬ t.KeepsWhole (["class_B"] ++ ["class_X"]) := by
    rw [Session.KeepsWhole, Session.chosenBy_of_noPages (by decide), hsize]
    decide
  rcases unknown_ids_iff t (.analyze hrun) ["class_B"] ["class_X"] (Or.inl (by decide))
    ⟨"B", by simp [hkeys], by decide⟩ (by simpa [hkeys] using ⟨"X", rfl, by decide⟩) with
    ⟨u, v, hu, hv, hiff⟩
  exact ⟨t, u, v, hrun, hu, hv, hiff.2 (Or.inr (Or.inl hfew))⟩

/-- Of two classes the selection of `A` shows one, and that of `A` and an unknown class shows both.
-/
theorem unknown_id_shows_all :
    ∃ t u v, (do openProject .plain "."; analyze : Action Unit) (Session.ofDisk pairFiles) =
        (.ok (), t) ∧
      filterGraph (Value.ofNames ["class_A"]) t = (.ok (), u) ∧
      filterGraph (Value.ofNames ["class_A", "class_X"]) t = (.ok (), v) ∧
      ¬ u.project.graph.SameContents v.project.graph := by
  rcases analyze_plain_run "." (Session.ofDisk pairFiles) with ⟨t, hrun, -, hgraph⟩
  have hpair : t.project.graph = pairGraph := hgraph.trans analyzed_pairFiles
  have hanalysed : t.Analysed := .analyze hrun
  rcases hanalysed.filterGraph_restricts ["class_A"] (by decide) (by decide)
    (by rw [hpair]; rfl) with
    ⟨u, hu, hgraph_u⟩
  rcases hanalysed.filterGraph_leads ["class_A", "class_X"] (Or.inl (by decide)) with
    ⟨v, hv, hwhole, -⟩
  have hkeeps : t.KeepsWhole ["class_A", "class_X"] := by
    rw [Session.KeepsWhole, Session.chosenBy_of_noPages (by decide), hpair]
    exact Or.inr rfl
  refine ⟨t, u, v, hrun, hu, hv, fun hsame => ?_⟩
  have hlost := (hsame.trans (.of_whole (hwhole hkeeps))).classes "B"
  rw [hgraph_u, hpair, get?_classes_pairGraph] at hlost
  revert hlost
  decide

end JavaDeps
