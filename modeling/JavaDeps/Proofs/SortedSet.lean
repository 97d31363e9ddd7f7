import Mathlib.Data.List.Dedup
import JavaDeps.Proofs.Table

/-!
# Sets do not remember the order of insertion

Texts are strictly ordered, so a set of names is the same in whatever order its members were added.
Other members are ordered by their texts, and different ones may have the same text; still a member
may be removed before or after another one is added.
-/

namespace JavaDeps

/-- The test is that of a strict total order. -/
structure StrictTotal {α : Type} (before : α → α → Bool) : Prop where
  asymm : ∀ {a b}, before a b = true → before b a = false
  trans : ∀ {a b c}, before a b = true → before b c = true → before a c = true
  total : ∀ {a b}, a ≠ b → before a b = true ∨ before b a = true

/-- Texts are ordered by the codes of their characters. -/
theorem before_strings (a b : String) : Ranked.before a b = Text.codeLt a.toList b.toList := by
  simp [Ranked.before, Ranked.rank, Ranked.rankLt, Text.precedes]

/-- Names are strictly ordered. -/
theorem strictTotal_strings : StrictTotal (Ranked.before : String → String → Bool) := by
  refine ⟨?_, ?_, ?_⟩
  · intro a b h
    rw [before_strings] at h ⊢
    exact Text.codeLt_asymm h
  · intro a b c h h'
    rw [before_strings] at h h' ⊢
    exact Text.codeLt_trans h h'
  · intro a b h
    rw [before_strings, before_strings]
    exact Text.codeLt_total (fun heq => h (String.toList_injective heq))

/-! ## Insertions commute -/

theorem insertSorted_comm_of_before {α : Type} {before : α → α → Bool} (h : StrictTotal before)
    {a b : α} (hab : before a b = true) (xs : List α) :
    insertSorted before a (insertSorted before b xs) =
      insertSorted before b (insertSorted before a xs) := by
  have hba : before b a = false := h.asymm hab
  -- Both places are found independently, unless both are before `y`: then `a` comes first.
  induction xs with
  | nil => simp [insertSorted, hab, hba]
  | cons y rest ih =>
    by_cases hby : before b y = true
    · have hay : before a y = true := h.trans hab hby
      simp [insertSorted, hab, hba, hby, hay]
    · by_cases hay : before a y = true
      · simp [insertSorted, hba, hby, hay]
      · simp [insertSorted, hby, hay, ih]

/-- Different elements can be inserted in either order. -/
theorem insertSorted_comm {α : Type} {before : α → α → Bool} (h : StrictTotal before)
    {a b : α} (hab : a ≠ b) (xs : List α) :
    insertSorted before a (insertSorted before b xs) =
      insertSorted before b (insertSorted before a xs) := by
  rcases h.total hab with hlt | hlt
  · exact insertSorted_comm_of_before h hlt xs
  · exact (insertSorted_comm_of_before h hlt xs).symm

/-- An insertion adds one element and loses none. -/
theorem insertSorted_perm {α : Type} (before : α → α → Bool) (x : α) (xs : List α) :
    (insertSorted before x xs).Perm (x :: xs) := by
  induction xs with
  | nil => exact List.Perm.refl _
  | cons y rest ih =>
    unfold insertSorted
    split
    · exact List.Perm.refl _
    · exact (ih.cons y).trans (List.Perm.swap x y rest)

namespace SortedSet

/-- Names can be inserted in either order. -/
theorem insert_comm (s : NameSet) (a b : String) :
    (s.insert a).insert b = (s.insert b).insert a := by
  by_cases hab : a = b
  · rw [hab]
  · -- Inserting one name does not change whether the other one is there.
    have hcontains : ∀ x y : String, x ≠ y → (s.insert x).contains y = s.contains y := by
      intro x y hne
      rw [Bool.eq_iff_iff, contains_iff, contains_iff, mem_insert]
      exact or_iff_right (fun h => hne h.symm)
    have hinsert : ∀ (t : NameSet) (x : String), t.insert x =
        if t.contains x then t else ⟨insertSorted Ranked.before x t.members,
          t.ascending.insertSorted (strictWeak_ranked String) x⟩ := fun _ _ => rfl
    rw [hinsert (s.insert a) b, hinsert (s.insert b) a, hcontains a b hab,
      hcontains b a (fun h => hab h.symm), hinsert s a, hinsert s b]
    by_cases ha : s.contains a = true <;> by_cases hb : s.contains b = true
    · simp [ha, hb]
    · simp [ha, hb]
    · simp [ha, hb]
    · simp only [ha, hb, Bool.false_eq_true, if_false, mk.injEq]
      exact insertSorted_comm strictTotal_strings (fun h => hab h.symm) _

theorem insertAll_append (s : NameSet) (names names' : List String) :
    s.insertAll (names ++ names') = (s.insertAll names).insertAll names' :=
  List.foldl_append

/-- The same names in another order give the same set. -/
theorem insertAll_perm {names names' : List String} (h : names.Perm names') (s : NameSet) :
    s.insertAll names = s.insertAll names' :=
  h.foldl_eq' (fun a _ b _ t => insert_comm t a b) s

/-- A name that is added later need not be added before. -/
theorem insertAll_insert_of_mem {name : String} {names : List String} (h : name ∈ names)
    (s : NameSet) : (s.insert name).insertAll names = s.insertAll names := by
  have hfirst : names.Perm (name :: names.erase name) := List.perm_cons_erase h
  have htwice : (s.insert name).insert name = s.insert name := by
    have hthere : (s.insert name).contains name = true := contains_iff.2 (mem_insert.2 (Or.inl rfl))
    rw [insert, if_pos hthere]
  calc (s.insert name).insertAll names
      = ((s.insert name).insert name).insertAll (names.erase name) := insertAll_perm hfirst _
    _ = s.insertAll (name :: names.erase name) := by rw [htwice]; rfl
    _ = s.insertAll names := (insertAll_perm hfirst s).symm

/-- The same names, each added as often as one likes, give the same set. -/
theorem insertAll_congr {names names' : List String} (h : ∀ name, name ∈ names ↔ name ∈ names')
    (s : NameSet) : s.insertAll names = s.insertAll names' := by
  have honce : ∀ (names : List String) (s : NameSet),
      s.insertAll names = s.insertAll names.dedup := by
    intro names
    induction names with
    | nil => exact fun s => rfl
    | cons name rest ih =>
      intro s
      by_cases hmem : name ∈ rest
      · rw [List.dedup_cons_of_mem hmem, ← ih]
        exact insertAll_insert_of_mem hmem s
      · rw [List.dedup_cons_of_notMem hmem]
        exact ih (s.insert name)
  have hperm : names.dedup.Perm names'.dedup := by
    refine (List.perm_ext_iff_of_nodup names.nodup_dedup names'.nodup_dedup).2 (fun name => ?_)
    rw [List.mem_dedup, List.mem_dedup]
    exact h name
  rw [honce names, honce names', insertAll_perm hperm]

/-- A set holds what it held before, and the inserted names. -/
theorem mem_insertAll {s : NameSet} {names : List String} {name : String} :
    name ∈ (s.insertAll names).toList ↔ name ∈ s.toList ∨ name ∈ names := by
  induction names generalizing s with
  | nil => simp [insertAll]
  | cons first rest ih =>
    have hrest : name ∈ (s.insertAll (first :: rest)).toList ↔
        name ∈ (s.insert first).toList ∨ name ∈ rest := ih
    rw [hrest, mem_insert, List.mem_cons]
    tauto

/-- A set holds exactly the elements of its list. -/
theorem mem_ofList {names : List String} {name : String} :
    name ∈ (ofList names).toList ↔ name ∈ names := by
  rw [ofList, mem_insertAll]
  exact or_iff_right (fun h => by cases h)

theorem nodup_insertAll {s : NameSet} (h : s.toList.Nodup) (names : List String) :
    (s.insertAll names).toList.Nodup := by
  induction names generalizing s with
  | nil => exact h
  | cons name rest ih =>
    refine ih ?_
    unfold insert
    split
    · exact h
    · rename_i hnew
      have hnew' : name ∉ s.toList := fun hmem => hnew (contains_iff.2 hmem)
      exact (insertSorted_perm Ranked.before name s.members).nodup_iff.2
        (List.nodup_cons.2 ⟨hnew', h⟩)

/-- A set has as many members as there are different ones. -/
theorem size_ofList (names : List String) : (ofList names).size = names.dedup.length := by
  have hnodup : (ofList names).toList.Nodup := nodup_insertAll (s := empty) List.nodup_nil names
  refine List.Perm.length_eq ((List.perm_ext_iff_of_nodup hnodup names.nodup_dedup).2 ?_)
  intro name
  rw [List.mem_dedup, mem_ofList]

end SortedSet

/-! ## Ascending lists -/

/-- Members may be taken out of an ascending list before or after another one is put in. -/
theorem filter_insertSorted {α : Type} {before : α → α → Bool} (hbefore : StrictWeak before)
    {p : α → Bool} {x : α} (hx : p x = true) {xs : List α}
    (h : Ascending before xs) :
    (insertSorted before x xs).filter p = insertSorted before x (xs.filter p) := by
  induction xs with
  | nil => simp [insertSorted, hx]
  | cons y rest ih =>
    have hrest : Ascending before rest := (List.pairwise_cons.1 h).2
    by_cases hxy : before x y = true
    · -- The new member comes first, also among those that are left.
      have hall : ∀ z ∈ (y :: rest).filter p, before x z = true := by
        intro z hz
        exact h.before_all hbefore hxy z (List.mem_filter.1 hz).1
      rw [insertSorted_before_all hall]
      simp [insertSorted, hxy, hx]
    · by_cases hy : p y = true
      · simp [insertSorted, hxy, hy, ih hrest]
      · simp [insertSorted, hxy, hy, ih hrest]

namespace SortedSet

variable {α : Type} [BEq α] [Ranked α]

/-- Erasing an element leaves the others. -/
theorem contains_erase_of_ne [EquivBEq α] (s : SortedSet α) {x y : α} (h : (x == y) = false) :
    (s.erase y).contains x = s.contains x := by
  rw [Bool.eq_iff_iff]
  simp only [contains, erase, filter, List.any_filter, List.any_eq_true, Bool.and_eq_true]
  refine exists_congr (fun z => and_congr_right (fun _ => ?_))
  refine ⟨fun hz => hz.2, fun hz => ⟨?_, hz⟩⟩
  have hzy : (z == y) = false := (BEq.congr_left hz).trans h
  simp [hzy]

/-- A member may be removed before or after another one is added. -/
theorem erase_insert_comm [EquivBEq α] (s : SortedSet α) {x y : α} (h : (x == y) = false) :
    (s.insert x).erase y = (s.erase y).insert x := by
  unfold insert
  rw [contains_erase_of_ne s h]
  split
  · rfl
  · have hx : (!(x == y)) = true := by simp [h]
    exact ext (filter_insertSorted (strictWeak_ranked α) hx s.ascending)

end SortedSet
end JavaDeps
