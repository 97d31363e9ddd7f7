import JavaDeps.Proofs.SortedSet
import JavaDeps.Proofs.Text
import JavaDeps.Selection.Choice

/-!
# What ids choose

An id chooses a class, a call or a page function, as its mark tells. Classes and calls are kept as
sets, page functions in the order of the ids.
-/

namespace JavaDeps

theorem starts_append (mark rest : String) : Text.starts (mark ++ rest) mark = true := by
  rw [Text.starts, String.toList_append, List.isPrefixOf_iff_prefix]
  exact List.prefix_append _ _

theorem append_dropChars_of_starts {id mark : String} (h : Text.starts id mark = true) :
    mark ++ Text.dropChars id mark.length = id := by
  rcases List.isPrefixOf_iff_prefix.1 h with ⟨rest, hrest⟩
  apply String.toList_injective
  rw [String.toList_append, Text.dropChars, String.toList_ofList, ← hrest, ← String.length_toList,
    List.drop_left]

/-- A set of names holds exactly the names in its list. -/
theorem contains_ofList_names {names : List String} {name : String} :
    (SortedSet.ofList names).contains name = true ↔ name ∈ names := by
  rw [SortedSet.contains_iff, SortedSet.mem_ofList]

namespace Choice

/-! ## One id -/

def classOf? (id : String) : Option String :=
  if Text.starts id classMark = true then some (Text.dropChars id classMark.length) else none

/-- The call that an id chooses: all that comes after the mark, if there are three underscores in
the id. -/
def namedCall? (id : String) : Option String :=
  if Text.starts id callMark = true ∧ 3 ≤ id.toList.count '_' then
    some (Text.dropChars id callMark.length)
  else none

/-- The id of a call chooses this call, whatever underscores there are in its parts. -/
theorem callOf?_callMark (call : String) :
    callOf? (callMark ++ call) = if 2 ≤ call.toList.count '_' then some call else none := by
  have hsplit : Text.splitCharsAtMost '_' 3 (callMark ++ call).toList =
      "method".toList :: Text.splitCharsAtMost '_' 2 call.toList := by
    rw [String.toList_append]
    rfl
  have hlength := Text.length_splitCharsAtMost '_' 2 call.toList
  have hjoin := Text.intercalate_splitCharsAtMost '_' 2 call.toList
  rw [callOf?, Text.splitAtMost, hsplit]
  -- Two marks divide the call into three parts, which are put together again as they were.
  rcases hparts : Text.splitCharsAtMost '_' 2 call.toList with
    _ | ⟨method, _ | ⟨source, _ | ⟨target, _ | ⟨more, rest⟩⟩⟩⟩ <;> rw [hparts] at hlength <;>
    simp only [List.length_cons, List.length_nil] at hlength
  · omega
  · rw [if_neg (by omega)]
    rfl
  · rw [if_neg (by omega)]
    rfl
  · rw [if_pos (by omega)]
    refine congrArg some (String.toList_injective ?_)
    rw [hparts] at hjoin
    rw [← hjoin]
    simp [List.intercalate]
  · omega

theorem callOf?_of_starts {id : String} (h : Text.starts id callMark = true) :
    callOf? id = namedCall? id := by
  have hid := append_dropChars_of_starts h
  have hcount : id.toList.count '_' =
      (Text.dropChars id callMark.length).toList.count '_' + 1 := by
    rw [← hid, String.toList_append, List.count_append, hid]
    exact Nat.add_comm _ _
  rw [← hid, callOf?_callMark, hid, namedCall?]
  simp only [h, true_and, hcount]
  by_cases htwo : 2 ≤ (Text.dropChars id callMark.length).toList.count '_'
  · rw [if_pos htwo, if_pos (by omega)]
  · rw [if_neg htwo, if_neg (by omega)]

/-- Marks of which neither starts with the other one exclude each other. -/
theorem starts_eq_false {id mark : String} (h : Text.starts id mark = true) (other : String)
    (hapart : (Text.starts mark other || Text.starts other mark) = false) :
    Text.starts id other = false := by
  refine Bool.eq_false_iff.2 (fun h' => Bool.eq_false_iff.1 hapart (Bool.or_eq_true_iff.2 ?_))
  simp only [Text.starts, List.isPrefixOf_iff_prefix] at h h' ⊢
  exact List.prefix_or_prefix_of_prefix h' h

/-- An id adds the class, the call or the page that it names. -/
theorem addId_eq (c : Choice) (id : String) :
    c.addId id =
      { classes := c.classes.insertAll (classOf? id).toList
        calls := c.calls.insertAll (namedCall? id).toList
        pages := c.pages ++ if Text.starts id pageMark = true then [id] else [] } := by
  unfold addId
  by_cases hclass : Text.starts id classMark = true
  · have hcall : Text.starts id callMark = false := starts_eq_false hclass _ (by decide)
    have hpage : Text.starts id pageMark = false := starts_eq_false hclass _ (by decide)
    simp [hclass, hcall, hpage, classOf?, namedCall?, SortedSet.insertAll]
  · by_cases hcall : Text.starts id callMark = true
    · have hpage : Text.starts id pageMark = false := starts_eq_false hcall _ (by decide)
      rw [callOf?_of_starts hcall]
      cases namedCall? id <;> simp [hclass, hcall, hpage, classOf?, SortedSet.insertAll]
    · by_cases hpage : Text.starts id pageMark = true <;>
        simp [hclass, hcall, hpage, classOf?, namedCall?, SortedSet.insertAll]

/-! ## Several ids -/

/-- Several ids choose what each of them chooses. -/
theorem ofIds_eq (ids : List String) :
    ofIds ids =
      { classes := SortedSet.ofList (ids.filterMap classOf?)
        calls := SortedSet.ofList (ids.filterMap namedCall?)
        pages := ids.filter (fun id => Text.starts id pageMark) } := by
  have hfold : ∀ (ids : List String) (c : Choice), ids.foldl addId c =
      { classes := c.classes.insertAll (ids.filterMap classOf?)
        calls := c.calls.insertAll (ids.filterMap namedCall?)
        pages := c.pages ++ ids.filter (fun id => Text.starts id pageMark) } := by
    intro ids
    induction ids with
    | nil =>
      intro c
      simp [SortedSet.insertAll]
    | cons id rest ih =>
      intro c
      have hcons : ∀ f : String → Option String,
          (id :: rest).filterMap f = (f id).toList ++ rest.filterMap f := by
        intro f
        cases hid : f id <;> simp [hid]
      rw [List.foldl_cons, ih, addId_eq, hcons, hcons, List.filter_cons]
      by_cases hpage : Text.starts id pageMark = true <;>
        simp [hpage, SortedSet.insertAll, List.foldl_append]
  exact hfold ids {}

/-- A call with all its parts is chosen by its id. -/
theorem contains_calls_ofIds {ids : List String} {call : String} (h : 2 ≤ call.toList.count '_')
    (hmem : callMark ++ call ∈ ids) : (ofIds ids).calls.contains call = true := by
  have hcall : namedCall? (callMark ++ call) = some call := by
    rw [← callOf?_of_starts (starts_append _ _), callOf?_callMark, if_pos h]
  rw [ofIds_eq]
  exact contains_ofList_names.2 (List.mem_filterMap.2 ⟨_, hmem, hcall⟩)

end Choice

/-- Ids of classes and calls, not of page functions. -/
def NoPages (ids : List String) : Prop := ∀ id ∈ ids, Text.starts id Choice.pageMark = false

instance (ids : List String) : Decidable (NoPages ids) :=
  inferInstanceAs (Decidable (∀ id ∈ ids, Text.starts id Choice.pageMark = false))

/-- Ids of no pages choose none. -/
theorem pages_ofIds {ids : List String} (h : NoPages ids) : (Choice.ofIds ids).pages = [] := by
  rw [Choice.ofIds_eq]
  exact List.filter_eq_nil_iff.2 (fun id hid => by simp [h id hid])

/-- Page functions choose neither classes nor calls. -/
theorem ofIds_pages {ids : List String} (h : ∀ id ∈ ids, Text.starts id Choice.pageMark = true) :
    Choice.ofIds ids = { pages := ids } := by
  have hclasses : ids.filterMap Choice.classOf? = [] := by
    refine List.filterMap_eq_nil_iff.2 (fun id hid => if_neg ?_)
    simp [Choice.starts_eq_false (h id hid) Choice.classMark (by decide)]
  have hcalls : ids.filterMap Choice.namedCall? = [] := by
    refine List.filterMap_eq_nil_iff.2 (fun id hid => if_neg ?_)
    simp [Choice.starts_eq_false (h id hid) Choice.callMark (by decide)]
  rw [Choice.ofIds_eq, hclasses, hcalls, List.filter_eq_self.2 h]
  rfl

end JavaDeps
