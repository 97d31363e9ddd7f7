import JavaDeps.Text.Basic

/-!
# Ranks

Members of sets are listed in ascending order. The order compares their texts; between members of
equal text a number decides. Different members may have the same rank.
-/

namespace JavaDeps

/-! ## Texts -/

namespace Text

/-- The order of texts is transitive. -/
theorem codeLt_trans {a b c : List Char} (h : codeLt a b = true) (h' : codeLt b c = true) :
    codeLt a c = true := by
  induction a generalizing b c with
  | nil => cases b <;> cases c <;> simp_all [codeLt]
  | cons x xs ih =>
    cases b with
    | nil => simp [codeLt] at h
    | cons y ys =>
      cases c with
      | nil => simp [codeLt] at h'
      | cons z zs =>
        simp only [codeLt, Bool.or_eq_true, Bool.and_eq_true, decide_eq_true_eq, beq_iff_eq]
          at h h' ⊢
        rcases h with h | ⟨h, hxs⟩ <;> rcases h' with h' | ⟨h', hys⟩
        · exact Or.inl (Nat.lt_trans h h')
        · exact Or.inl (h' ▸ h)
        · exact Or.inl (h ▸ h')
        · exact Or.inr ⟨h.trans h', ih hxs hys⟩

theorem codeLt_asymm {a b : List Char} (h : codeLt a b = true) : codeLt b a = false := by
  induction a generalizing b with
  | nil => cases b <;> simp_all [codeLt]
  | cons x xs ih =>
    cases b with
    | nil => simp [codeLt] at h
    | cons y ys =>
      simp only [codeLt, Bool.or_eq_true, Bool.and_eq_true, decide_eq_true_eq, beq_iff_eq] at h
      rcases h with h | ⟨h, hxs⟩
      · have hne : ¬ y.toNat = x.toNat := fun heq => absurd h (by omega)
        have hnlt : ¬ y.toNat < x.toNat := by omega
        simp [codeLt, hne, hnlt]
      · simp [codeLt, h, ih hxs]

/-- No text comes before itself. -/
theorem codeLt_irrefl (a : List Char) : ¬ codeLt a a = true :=
  fun h => Bool.eq_false_iff.1 (codeLt_asymm h) h

/-- Of two different texts one comes first. -/
theorem codeLt_total {a b : List Char} (h : a ≠ b) : codeLt a b = true ∨ codeLt b a = true := by
  induction a generalizing b with
  | nil =>
    cases b with
    | nil => exact absurd rfl h
    | cons y ys => exact Or.inl rfl
  | cons x xs ih =>
    cases b with
    | nil => exact Or.inr rfl
    | cons y ys =>
      simp only [codeLt, Bool.or_eq_true, Bool.and_eq_true, decide_eq_true_eq, beq_iff_eq]
      rcases Nat.lt_trichotomy x.toNat y.toNat with hlt | heq | hgt
      · exact Or.inl (Or.inl hlt)
      · have hne : xs ≠ ys := fun hxs => h (by rw [hxs, Char.toNat_inj.1 heq])
        exact (ih hne).imp (fun hxs => Or.inr ⟨heq, hxs⟩) (fun hys => Or.inr ⟨heq.symm, hys⟩)
      · exact Or.inr (Or.inl hgt)

/-- A text between two others comes after the first or before the second. -/
theorem codeLt_cotrans {a b : List Char} (h : codeLt a b = true) (c : List Char) :
    codeLt a c = true ∨ codeLt c b = true := by
  by_cases hac : a = c
  · exact Or.inr (hac ▸ h)
  · exact (codeLt_total hac).imp_right (fun hca => codeLt_trans hca h)

end Text

/-! ## Ranks -/

/-- Types whose members are ordered by texts and numbers. -/
class Ranked (α : Type) where
  rank : α → List (String × Nat)

namespace Ranked

def rankLt : List (String × Nat) → List (String × Nat) → Bool
  | _, [] => false
  | [], _ :: _ => true
  | a :: as, b :: bs =>
    Text.precedes a.1 b.1
      || (a.1 == b.1 && (decide (a.2 < b.2) || (a.2 == b.2 && rankLt as bs)))

def before {α : Type} [Ranked α] (a b : α) : Bool := rankLt (rank a) (rank b)

end Ranked

instance : Ranked String := ⟨fun s => [(s, 1)]⟩

instance {α β : Type} [Ranked α] [Ranked β] : Ranked (α × β) :=
  ⟨fun p => Ranked.rank p.1 ++ Ranked.rank p.2⟩

/-- The test is that of a strict order in which members may have the same rank. -/
structure StrictWeak {α : Type} (before : α → α → Bool) : Prop where
  asymm : ∀ {a b}, before a b = true → before b a = false
  cotrans : ∀ {a b}, before a b = true → ∀ c, before a c = true ∨ before c b = true

namespace Ranked

theorem rankLt_cons (a b : String × Nat) (as bs : List (String × Nat)) :
    rankLt (a :: as) (b :: bs) = true ↔ Text.codeLt a.1.toList b.1.toList = true ∨
      a.1 = b.1 ∧ (a.2 < b.2 ∨ a.2 = b.2 ∧ rankLt as bs = true) := by
  simp [rankLt, Text.precedes]

/-- The order of ranks is asymmetric. -/
theorem rankLt_asymm {as bs : List (String × Nat)} (h : rankLt as bs = true) :
    rankLt bs as = false := by
  induction as generalizing bs with
  | nil => cases bs <;> simp_all [rankLt]
  | cons a as ih =>
    cases bs with
    | nil => simp [rankLt] at h
    | cons b bs =>
      refine Bool.eq_false_iff.2 (fun h' => ?_)
      rw [rankLt_cons] at h h'
      -- The first texts decide, then the first numbers, and then the rest.
      rcases h with h | ⟨h, hrest⟩ <;> rcases h' with h' | ⟨h', hrest'⟩
      · exact Bool.eq_false_iff.1 (Text.codeLt_asymm h) h'
      · exact Text.codeLt_irrefl _ (h' ▸ h)
      · exact Text.codeLt_irrefl _ (h ▸ h')
      · rcases hrest with hlt | ⟨heq, hrest⟩ <;> rcases hrest' with hlt' | ⟨heq', hrest'⟩
        · omega
        · omega
        · omega
        · exact Bool.eq_false_iff.1 (ih hrest) hrest'

/-- A rank comes behind the first or before the second of two in order. -/
theorem rankLt_cotrans {as bs : List (String × Nat)} (h : rankLt as bs = true)
    (cs : List (String × Nat)) : rankLt as cs = true ∨ rankLt cs bs = true := by
  induction as generalizing bs cs with
  | nil =>
    cases cs with
    | nil => exact Or.inr h
    | cons c cs => exact Or.inl rfl
  | cons a as ih =>
    cases bs with
    | nil => simp [rankLt] at h
    | cons b bs =>
      cases cs with
      | nil => exact Or.inr rfl
      | cons c cs =>
        rw [rankLt_cons] at h
        simp only [rankLt_cons]
        rcases h with h | ⟨h, hrest⟩
        · exact (Text.codeLt_cotrans h c.1.toList).imp Or.inl Or.inl
        · by_cases hac : a.1 = c.1
          · have hcb : c.1 = b.1 := hac.symm.trans h
            rcases hrest with hlt | ⟨heq, hrest⟩
            · rcases Nat.lt_or_ge a.2 c.2 with hlt' | hge
              · exact Or.inl (Or.inr ⟨hac, Or.inl hlt'⟩)
              · exact Or.inr (Or.inr ⟨hcb, Or.inl (by omega)⟩)
            · rcases Nat.lt_trichotomy a.2 c.2 with hlt | heq' | hgt
              · exact Or.inl (Or.inr ⟨hac, Or.inl hlt⟩)
              · exact (ih hrest cs).imp (fun hcs => Or.inr ⟨hac, Or.inr ⟨heq', hcs⟩⟩)
                  (fun hcs => Or.inr ⟨hcb, Or.inr ⟨by omega, hcs⟩⟩)
              · exact Or.inr (Or.inr ⟨hcb, Or.inl (by omega)⟩)
          · have hne : a.1.toList ≠ c.1.toList := fun heq => hac (String.toList_injective heq)
            exact (Text.codeLt_total hne).imp Or.inl (fun hca => Or.inl (h ▸ hca))

end Ranked

/-- Ranks are a strict weak order. -/
theorem strictWeak_ranked (α : Type) [Ranked α] : StrictWeak (Ranked.before : α → α → Bool) where
  asymm h := Ranked.rankLt_asymm h
  cotrans h c := Ranked.rankLt_cotrans h (Ranked.rank c)

/-! ## Sorted lists -/

/-- Puts an element behind all elements that do not come after it. -/
def insertSorted {α : Type} (before : α → α → Bool) (x : α) : List α → List α
  | [] => [x]
  | y :: rest => if before x y then x :: y :: rest else y :: insertSorted before x rest

/-- Sorts a list; elements of equal rank keep their order. -/
def sortBy {α : Type} (before : α → α → Bool) : List α → List α
  | xs => xs.foldl (fun acc x => insertSorted before x acc) []

/-- An insertion adds exactly the element to the list. -/
theorem mem_insertSorted {α : Type} {before : α → α → Bool} {x y : α} {xs : List α} :
    y ∈ insertSorted before x xs ↔ y = x ∨ y ∈ xs := by
  induction xs with
  | nil => simp [insertSorted]
  | cons z rest ih =>
    by_cases h : before x z = true
    · simp [insertSorted, h]
    · simp only [insertSorted, h, Bool.false_eq_true, if_false, List.mem_cons, ih]
      exact or_left_comm

/-- No member comes before one that is listed earlier. -/
abbrev Ascending {α : Type} (before : α → α → Bool) (xs : List α) : Prop :=
  xs.Pairwise (fun a b => before b a = false)

section

variable {α : Type} {before : α → α → Bool}

/-- What comes before all elements is inserted in front. -/
theorem insertSorted_before_all {x : α} {xs : List α} (h : ∀ z ∈ xs, before x z = true) :
    insertSorted before x xs = x :: xs := by
  cases xs with
  | nil => rfl
  | cons y rest => simp [insertSorted, h y List.mem_cons_self]

variable (hbefore : StrictWeak before)
include hbefore

/-- What comes before the first member of an ascending list comes before all of them. -/
theorem Ascending.before_all {x y : α} {rest : List α} (h : Ascending before (y :: rest))
    (hxy : before x y = true) : ∀ z ∈ y :: rest, before x z = true := by
  intro z hz
  rcases List.mem_cons.1 hz with rfl | hz
  · exact hxy
  · have hzy : before z y = false := (List.pairwise_cons.1 h).1 z hz
    refine (hbefore.cotrans hxy z).resolve_right ?_
    simp [hzy]

/-- An insertion keeps the order. -/
theorem Ascending.insertSorted {xs : List α} (h : Ascending before xs) (x : α) :
    Ascending before (insertSorted before x xs) := by
  induction xs with
  | nil => exact List.pairwise_singleton _ x
  | cons y rest ih =>
    rcases List.pairwise_cons.1 h with ⟨hfirst, hrest⟩
    unfold JavaDeps.insertSorted
    split
    · rename_i hxy
      refine List.pairwise_cons.2 ⟨fun z hz => ?_, h⟩
      exact hbefore.asymm (h.before_all hbefore hxy z hz)
    · rename_i hxy
      refine List.pairwise_cons.2 ⟨fun z hz => ?_, ih hrest⟩
      rcases mem_insertSorted.1 hz with rfl | hz
      · exact Bool.eq_false_iff.2 hxy
      · exact hfirst z hz

end

end JavaDeps
