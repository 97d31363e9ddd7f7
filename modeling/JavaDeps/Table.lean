/-!
# Ordered tables

A table maps keys to values and remembers in which order its keys were added. No two of its keys
compare as equal. Writing to a key that is present keeps its place; removing it and writing again
puts it at the end.
-/

namespace JavaDeps

/-- No two keys of the entries compare as equal. -/
abbrev DistinctKeys {α β : Type} [BEq α] (entries : List (α × β)) : Prop :=
  (entries.map Prod.fst).Pairwise (fun k k' => (k == k') = false)

/-- A table: its entries, in the order in which the keys were added. -/
structure Table (α β : Type) [BEq α] where
  entries : List (α × β)
  distinct : DistinctKeys entries := by decide
  deriving DecidableEq

namespace Table

variable {α β γ : Type} [BEq α]

def empty : Table α β := ⟨[], List.Pairwise.nil⟩

instance : Inhabited (Table α β) := ⟨empty⟩

def keys (t : Table α β) : List α := t.entries.map Prod.fst

def values (t : Table α β) : List β := t.entries.map Prod.snd

def size (t : Table α β) : Nat := t.entries.length

def total (measure : β → Nat) (t : Table α β) : Nat :=
  t.values.foldl (fun n v => n + measure v) 0

def isEmpty (t : Table α β) : Bool := t.entries.isEmpty

def get? (t : Table α β) (k : α) : Option β :=
  (t.entries.find? (fun e => e.1 == k)).map Prod.snd

def contains (t : Table α β) (k : α) : Bool := t.entries.any (fun e => e.1 == k)

/-- Replaces the value of the first entry with the key, or adds an entry at the end. -/
def setIn (k : α) (v : β) : List (α × β) → List (α × β)
  | [] => [(k, v)]
  | e :: rest => if e.1 == k then (e.1, v) :: rest else e :: setIn k v rest

/-- A key that is present keeps its place, a new one goes to the end. -/
theorem keys_setIn (k : α) (v : β) (entries : List (α × β)) :
    (setIn k v entries).map Prod.fst =
      if entries.any (fun e => e.1 == k) then entries.map Prod.fst
      else entries.map Prod.fst ++ [k] := by
  induction entries with
  | nil => simp [setIn]
  | cons e rest ih =>
    by_cases he : (e.1 == k) = true
    · simp [setIn, he]
    · simp only [setIn, he, Bool.false_eq_true, if_false, List.map_cons, ih, List.any_cons]
      by_cases h : (rest.any fun e => e.1 == k) = true <;> simp [h]

/-- A set entry keeps the keys distinct. -/
theorem distinct_setIn {entries : List (α × β)} (h : DistinctKeys entries) (k : α) (v : β) :
    DistinctKeys (setIn k v entries) := by
  unfold DistinctKeys
  rw [keys_setIn]
  split
  · exact h
  · rename_i hnew
    refine List.pairwise_append.2 ⟨h, List.pairwise_singleton _ k, fun k' hk' k'' hk'' => ?_⟩
    rcases List.mem_map.1 hk' with ⟨e, he, rfl⟩
    rw [List.mem_singleton.1 hk'']
    exact Bool.eq_false_iff.2 (fun hequal => hnew (List.any_eq_true.2 ⟨e, he, hequal⟩))

/-- Writes a value to a key. A key that is present keeps its place. -/
def set (t : Table α β) (k : α) (v : β) : Table α β :=
  ⟨setIn k v t.entries, distinct_setIn t.distinct k v⟩

def filterKeys (p : α → Bool) (t : Table α β) : Table α β :=
  ⟨t.entries.filter (fun e => p e.1), t.distinct.sublist (List.filter_sublist.map _)⟩

def erase (t : Table α β) (k : α) : Table α β := t.filterKeys (fun k' => !(k' == k))

def getD (t : Table α β) (k : α) (v : β) : β := (t.get? k).getD v

/-- Writes to a key what `f` makes of its value, or of `init` when the key is absent. -/
def alter (t : Table α β) (k : α) (init : β) (f : β → β) : Table α β := t.set k (f (t.getD k init))

/-- Adds an absent key with a value; a key that is present keeps its value. -/
def ensure (t : Table α β) (k : α) (v : β) : Table α β := if t.contains k then t else t.set k v

/-- The table of a list of pairs, each written after the one before. -/
def ofList (pairs : List (α × β)) : Table α β := pairs.foldl (fun t e => t.set e.1 e.2) empty

def mapValues (f : β → γ) (t : Table α β) : Table α γ :=
  ⟨t.entries.map (fun e => (e.1, f e.2)), by
    rw [DistinctKeys, List.map_map]
    exact t.distinct⟩

/-! ## Laws -/

@[simp] theorem get?_empty (k : α) : (empty : Table α β).get? k = none := rfl

/-- Removing a key leaves the other keys in their order. -/
theorem keys_erase (t : Table α β) (k : α) :
    (t.erase k).keys = t.keys.filter (fun k' => !(k' == k)) := by
  simp [keys, erase, filterKeys, List.filter_map, Function.comp_def]

/-- A new key comes last, and a known one keeps its place. -/
theorem keys_set (t : Table α β) (k : α) (v : β) :
    (t.set k v).keys = if t.contains k then t.keys else t.keys ++ [k] :=
  keys_setIn k v t.entries

/-- Tables with the same entries are the same. -/
theorem ext {t t' : Table α β} (h : t.entries = t'.entries) : t = t' := by
  cases t
  cases t'
  cases h
  rfl

/-- Writing answers all keys that are equal to the one that was written, and leaves the others
alone. -/
theorem get?_set [EquivBEq α] (t : Table α β) (k k' : α) (v : β) :
    (t.set k v).get? k' = if k == k' then some v else t.get? k' := by
  obtain ⟨entries, distinct⟩ := t
  simp only [get?, set]
  clear distinct
  induction entries with
  | nil => by_cases h : (k == k') = true <;> simp [setIn, h]
  | cons e rest ih =>
    by_cases he : (e.1 == k) = true
    · have hsame : (e.1 == k') = (k == k') := BEq.congr_left he
      by_cases h : (k == k') = true <;> simp [setIn, he, hsame, h]
    · by_cases h' : (e.1 == k') = true
      · have hother : (k == k') = false :=
          Bool.eq_false_iff.2 (fun h => he (BEq.trans h' (BEq.symm h)))
        simp [setIn, he, h', hother]
      · simpa [setIn, he, h'] using ih

end Table

end JavaDeps
