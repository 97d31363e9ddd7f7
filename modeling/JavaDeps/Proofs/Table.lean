import JavaDeps.SortedSet
import JavaDeps.Table

/-!
# Laws of tables and sets

Further laws of `Table`: how the entries, the keys and the answers of a table change when a key is
written, and how entries and answers correspond, since no two keys compare as equal. At the end,
what the members of a `SortedSet` are after an insertion.
-/

namespace JavaDeps
namespace Table

variable {α β : Type} [BEq α]

@[simp] theorem keys_empty : (empty : Table α β).keys = [] := rfl

@[simp] theorem entries_empty : (empty : Table α β).entries = [] := rfl

@[simp] theorem getD_empty (k : α) (v : β) : (empty : Table α β).getD k v = v := rfl

theorem set_entries_ne_nil (t : Table α β) (k : α) (v : β) : (t.set k v).entries ≠ [] := by
  rcases t with ⟨_ | ⟨e, rest⟩, -⟩
  · simp [set, setIn]
  · by_cases he : e.1 == k <;> simp [set, setIn, he]

/-! ## Answers and entries -/

variable {t : Table α β} {k k' : α} {v : β} {e : α × β}

theorem contains_eq_isSome (t : Table α β) (k : α) : t.contains k = (t.get? k).isSome := by
  rw [Bool.eq_iff_iff]
  simp [contains, get?]

/-- A value other than the given one is that of a key that is present. -/
theorem get?_of_getD_ne (h : t.getD k v ≠ v) : t.get? k = some (t.getD k v) := by
  rw [getD] at h ⊢
  cases hget : t.get? k with
  | none =>
    rw [hget] at h
    exact absurd rfl h
  | some v' => rfl

/-- What is found stands under an equal key. -/
theorem entry_of_get? (h : t.get? k = some v) : ∃ k', (k', v) ∈ t.entries ∧ (k' == k) = true := by
  rcases Option.map_eq_some_iff.1 h with ⟨e, hfound, rfl⟩
  have hkey : (e.1 == k) = true := List.find?_some (p := fun e : α × β => e.1 == k) hfound
  exact ⟨e.1, List.mem_of_find?_eq_some hfound, hkey⟩

/-- A row that is looked up is an entry, or there is none and it is empty. -/
theorem entry_of_mem_getD {γ : Type} [BEq γ] {t : Table α (Table γ β)} {e : γ × β}
    (h : e ∈ (t.getD k Table.empty).entries) :
    ∃ k' row, (k', row) ∈ t.entries ∧ (k' == k) = true ∧ e ∈ row.entries := by
  unfold getD at h
  cases hget : t.get? k with
  | none =>
    rw [hget] at h
    cases h
  | some row =>
    rw [hget] at h
    rcases entry_of_get? hget with ⟨k', hentry, hk⟩
    exact ⟨k', row, hentry, hk, h⟩

/-- Every entry is found under its key and under all that compare as equal to it. -/
theorem get?_of_mem_equal [EquivBEq α] (h : (k', v) ∈ t.entries) (hk : (k' == k) = true) :
    t.get? k = some v := by
  rcases t with ⟨entries, distinct⟩
  simp only [get?] at h ⊢
  induction entries with
  | nil => cases h
  | cons e rest ih =>
    rcases List.pairwise_cons.1 distinct with ⟨hfirst, hrest⟩
    rcases List.mem_cons.1 h with rfl | h
    · simp [hk]
    · -- The first entry is not the one that is asked for: else it would equal the one that is.
      have hne : (e.1 == k) = false := by
        have hother : (e.1 == k') = false := hfirst k' (List.mem_map_of_mem h)
        refine Bool.eq_false_iff.2 (fun hek => ?_)
        rw [BEq.trans hek (BEq.symm hk)] at hother
        cases hother
      simpa [hne] using ih hrest h

/-- Writing the value that a key has changes nothing. -/
theorem set_of_get? (h : t.get? k = some v) : t.set k v = t := by
  refine ext ?_
  rcases t with ⟨entries, distinct⟩
  simp only [get?, set] at h ⊢
  clear distinct
  induction entries with
  | nil => cases h
  | cons e rest ih =>
    by_cases he : (e.1 == k) = true
    · have hv : e.2 = v := by simpa [he] using h
      simp [setIn, he, ← hv]
    · simp only [setIn, he, Bool.false_eq_true, if_false]
      rw [ih (by simpa [he] using h)]

/-- A written entry has the new value; all others were there before. -/
theorem value_of_mem_set (h : e ∈ (t.set k v).entries) : e.2 = v ∨ e ∈ t.entries := by
  rcases t with ⟨entries, distinct⟩
  simp only [set] at h ⊢
  clear distinct
  induction entries with
  | nil => exact Or.inl (by rw [List.mem_singleton.1 h])
  | cons d rest ih =>
    simp only [setIn] at h
    by_cases hd : (d.1 == k) = true
    · rw [if_pos hd] at h
      rcases List.mem_cons.1 h with rfl | h
      · exact Or.inl rfl
      · exact Or.inr (List.mem_cons_of_mem _ h)
    · rw [if_neg hd] at h
      rcases List.mem_cons.1 h with rfl | h
      · exact Or.inr List.mem_cons_self
      · exact (ih h).imp_right (List.mem_cons_of_mem _)

variable [LawfulBEq α]

/-- No key stands twice in a table. -/
theorem nodup_keys (t : Table α β) : t.keys.Nodup :=
  t.distinct.imp (fun h => by simpa using h)

/-- What is found stands in the table. -/
theorem mem_entries_of_get? (h : t.get? k = some v) : (k, v) ∈ t.entries := by
  rcases entry_of_get? h with ⟨k', hentry, hk⟩
  rw [← eq_of_beq hk]
  exact hentry

/-- A table contains exactly its keys. -/
theorem contains_iff_mem_keys : t.contains k = true ↔ k ∈ t.keys := by
  simp only [contains, keys, List.any_eq_true, beq_iff_eq, List.mem_map]

/-- Nothing is found exactly for what is no key. -/
theorem get?_eq_none_iff : t.get? k = none ↔ k ∉ t.keys := by
  rw [← contains_iff_mem_keys, contains_eq_isSome]
  cases t.get? k <;> simp

/-- Every entry is found under its key. -/
theorem get?_of_mem (h : (k, v) ∈ t.entries) : t.get? k = some v := get?_of_mem_equal h BEq.rfl

/-! ## Writing -/

/-- An entry is the one that was set, or was there before. -/
theorem mem_set (h : e ∈ (t.set k v).entries) : e = (k, v) ∨ e ∈ t.entries := by
  rcases value_of_mem_set h with hvalue | hold
  · -- The key of an entry that is written is the one that is asked for, or was there before.
    by_cases hkey : e.1 = k
    · exact Or.inl (Prod.ext hkey hvalue)
    · have hget := get?_of_mem h
      rw [get?_set, if_neg (by simpa using fun heq => hkey heq.symm)] at hget
      exact Or.inr (mem_entries_of_get? hget)
  · exact Or.inr hold

/-- The keys are those before and the one that was set. -/
theorem mem_keys_set :
    k' ∈ (t.set k v).keys ↔ k' = k ∨ k' ∈ t.keys := by
  rw [keys_set]
  by_cases h : t.contains k = true
  · have hk : k ∈ t.keys := contains_iff_mem_keys.1 h
    simp only [h, if_true]
    exact ⟨Or.inr, fun h' => h'.elim (fun e => e ▸ hk) id⟩
  · simp [h, or_comm]

/-- A changed value is found under its key, and all others as before. -/
theorem get?_alter (t : Table α β) (k k' : α) (init : β) (f : β → β) :
    (t.alter k init f).get? k' = if k == k' then some (f (t.getD k init)) else t.get? k' :=
  get?_set t k k' _

theorem getD_alter (t : Table α β) (k k' : α) (init v : β) (f : β → β) :
    (t.alter k init f).getD k' v = if k == k' then f (t.getD k init) else t.getD k' v := by
  unfold getD
  rw [get?_alter]
  by_cases h : k == k' <;> simp [h, getD]

theorem getD_set (t : Table α β) (k k' : α) (v w : β) :
    (t.set k v).getD k' w = if k == k' then v else t.getD k' w := by
  unfold getD
  rw [get?_set]
  by_cases h : k == k' <;> simp [h]

/-- A key that is ensured has its value, or else the given one. -/
theorem get?_ensure (t : Table α β) (k k' : α) (v : β) :
    (t.ensure k v).get? k' = if k == k' then some (t.getD k v) else t.get? k' := by
  unfold ensure getD
  rw [contains_eq_isSome]
  by_cases h : k = k'
  · subst h
    cases hk : t.get? k <;> simp [hk, get?_set]
  · cases t.get? k <;> simp [h, get?_set]

/-- Ensuring the default of a key changes no look-up with this default. -/
theorem getD_ensure (t : Table α β) (k k' : α) (v : β) :
    (t.ensure k v).getD k' v = t.getD k' v := by
  unfold getD
  rw [get?_ensure]
  by_cases h : k = k' <;> simp [h, getD]

end Table

/-! ## Sorted sets -/

namespace SortedSet

variable {α : Type} [BEq α] [LawfulBEq α] [Ranked α] {s : SortedSet α} {x y : α}

/-- A set contains exactly its elements. -/
theorem contains_iff : s.contains x = true ↔ x ∈ s.toList := by
  simp [contains, toList]

/-- An insertion adds exactly the element. -/
theorem mem_insert : y ∈ (s.insert x).toList ↔ y = x ∨ y ∈ s.toList := by
  by_cases h : s.contains x = true
  · have hx : x ∈ s.toList := contains_iff.1 h
    simp only [insert, h, if_true]
    exact ⟨Or.inr, fun h' => h'.elim (fun e => e ▸ hx) id⟩
  · simp only [insert, h, Bool.false_eq_true, if_false]
    exact mem_insertSorted

end SortedSet
end JavaDeps
