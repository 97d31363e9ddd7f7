import JavaDeps.Graph.Basic
import JavaDeps.Proofs.Table

/-!
# Values that compare as equal

Single values may compare as equal without being the same: a truth value is equal to a number. Keys
of tables and members of sets are told apart only by this comparison, so that a look-up may find an
entry under another key than the one that was asked for.
-/

namespace JavaDeps

/-! ## The comparison -/

instance : EquivBEq Atom where
  rfl {a} := decide_eq_true (rfl : a.canonical = a.canonical)
  symm h := decide_eq_true (of_decide_eq_true h).symm
  trans h h' := decide_eq_true ((of_decide_eq_true h).trans (of_decide_eq_true h'))

namespace Node

theorem beq_file {p : SourcePath} {n : Node} : (n == .file p) = true ↔ n = .file p := by
  cases n with
  | file q =>
    show decide (q = p) = true ↔ _
    simp
  | named a =>
    show false = true ↔ _
    simp

theorem file_beq {p : SourcePath} {n : Node} : (.file p == n) = true ↔ n = .file p := by
  cases n with
  | file q =>
    show decide (p = q) = true ↔ _
    simp [eq_comm]
  | named a =>
    show false = true ↔ _
    simp

theorem named_beq {a b : Atom} : ((named a : Node) == named b) = (a == b) := rfl

instance : EquivBEq Node where
  rfl {m} := by
    cases m with
    | file p => exact file_beq.2 rfl
    | named a => exact (BEq.rfl : (a == a) = true)
  symm {m n} h := by
    cases m with
    | file p => exact beq_file.2 (file_beq.1 h)
    | named a =>
      cases n with
      | file q => cases h
      | named b => exact (BEq.symm (named_beq ▸ h) : (b == a) = true)
  trans {l m n} h h' := by
    cases m with
    | file p =>
      rw [beq_file.1 h]
      exact h'
    | named b =>
      cases l with
      | file p => cases h
      | named a =>
        cases n with
        | file q => cases h'
        | named c => exact (BEq.trans (named_beq ▸ h) (named_beq ▸ h') : (a == c) = true)

end Node

/-- Two values count as one label: they are the same, or single values that compare as equal. -/
def Value.Alike (v w : Value) : Prop :=
  v = w ∨ ∃ a b, v = .atom a ∧ w = .atom b ∧ (a == b) = true

/-- Alike to a single value are those that compare as equal to it. -/
theorem Value.atom_alike {a : Atom} {v : Value} :
    (Value.atom a).Alike v ↔ ∃ b, v = .atom b ∧ (a == b) = true := by
  constructor
  · rintro (rfl | ⟨a', b, ha, rfl, hab⟩)
    · exact ⟨a, rfl, BEq.rfl⟩
    · cases ha
      exact ⟨b, rfl, hab⟩
  · rintro ⟨b, rfl, hab⟩
    exact Or.inr ⟨a, b, rfl, rfl, hab⟩

/-- A text is equal only to itself. -/
theorem Atom.str_beq {s : String} {a : Atom} : (Atom.str s == a) = true ↔ a = .str s := by
  constructor
  · intro h
    have hcanonical : Atom.str s = a.canonical := of_decide_eq_true h
    cases a with
    | str t => exact hcanonical.symm
    | decimal x =>
      unfold Atom.canonical at hcanonical
      dsimp only at hcanonical
      split at hcanonical <;> cases hcanonical
    | _ => cases hcanonical
  · rintro rfl
    exact BEq.rfl

/-- A text is alike only to itself. -/
theorem Value.str_alike {s : String} {v : Value} : (Value.str s).Alike v ↔ v = .str s := by
  simp only [atom_alike, Atom.str_beq, exists_eq_right]

/-! ## Sets -/

namespace SortedSet

variable {α : Type} [BEq α] [Ranked α] {s : SortedSet α} {x y : α}

theorem mem_of_mem_insert (h : y ∈ (s.insert x).toList) : y = x ∨ y ∈ s.toList := by
  unfold insert at h
  split at h
  · exact Or.inr h
  · exact mem_insertSorted.1 h

/-- Inserting brings in no members but those that are given. -/
theorem mem_of_mem_insertAll {xs : List α} (h : y ∈ (s.insertAll xs).toList) :
    y ∈ s.toList ∨ y ∈ xs := by
  induction xs generalizing s with
  | nil => exact Or.inl h
  | cons x rest ih =>
    rcases ih h with h | h
    · exact (mem_of_mem_insert h).elim (fun e => Or.inr (by simp [e])) Or.inl
    · exact Or.inr (List.mem_cons_of_mem _ h)

theorem mem_of_mem_ofList {xs : List α} (h : y ∈ (ofList xs).toList) : y ∈ xs :=
  (mem_of_mem_insertAll h).resolve_left (fun h => by cases h)

variable [EquivBEq α]

theorem contains_insert_iff :
    (s.insert x).contains y = true ↔ (x == y) = true ∨ s.contains y = true := by
  by_cases hx : s.contains x = true
  · -- What is equal to the new member is equal to the one that keeps it out.
    have hequal : (x == y) = true → s.contains y = true := by
      intro hxy
      rcases List.any_eq_true.1 hx with ⟨z, hz, hzx⟩
      exact List.any_eq_true.2 ⟨z, hz, BEq.trans hzx hxy⟩
    simp only [insert, hx, if_true]
    exact ⟨Or.inr, fun h => h.elim hequal id⟩
  · simp only [insert, hx, Bool.false_eq_true, if_false]
    simp only [contains, List.any_eq_true, mem_insertSorted, or_and_right,
      exists_or, exists_eq_left]

/-- Every given element has an equal one in the set afterwards. -/
theorem contains_insertAll_iff {xs : List α} :
    (s.insertAll xs).contains y = true ↔ s.contains y = true ∨ ∃ x ∈ xs, (x == y) = true := by
  induction xs generalizing s with
  | nil => simp [insertAll]
  | cons x rest ih =>
    have hstep : s.insertAll (x :: rest) = (s.insert x).insertAll rest := rfl
    rw [hstep, ih, contains_insert_iff]
    simp only [List.mem_cons, or_and_right, exists_or, exists_eq_left]
    exact or_assoc.trans or_left_comm

theorem contains_ofList_iff {xs : List α} :
    (ofList xs).contains y = true ↔ ∃ x ∈ xs, (x == y) = true := by
  have hempty : (empty : SortedSet α).contains y = false := rfl
  unfold ofList
  rw [contains_insertAll_iff, hempty]
  simp

/-- Every element of a list is represented in its set. -/
theorem exists_mem_ofList {xs : List α} (h : x ∈ xs) :
    ∃ y ∈ (ofList xs).toList, (y == x) = true :=
  List.any_eq_true.1 (contains_ofList_iff.2 ⟨x, h, BEq.rfl⟩)

end SortedSet

end JavaDeps
