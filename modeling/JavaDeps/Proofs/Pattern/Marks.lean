import JavaDeps.Pattern.Match

/-!
# Marks that are taken back

A way that is given up outside of repetitions leaves marks behind, of which only those are taken
back that come after the ones set before. As long as groups are marked in the order of their
numbers, this gives exactly the marks set before.
-/

namespace JavaDeps
namespace Marks

/-! ## Marks up to a number -/

def level (m : Nat × Capture) : Nat := if m.2.stop.isSome then 2 * m.1 else 2 * m.1 - 1

/-- What is left of the marks of a group when the marks after a number are taken back. -/
def cut (n : Nat) (m : Nat × Capture) : Option (Nat × Capture) :=
  if n < 2 * m.1 - 1 then none
  else if n < 2 * m.1 then some (m.1, { m.2 with stop := none })
  else some m

def upTo (n : Nat) (marks : Marks) : Marks := marks.filterMap (cut n)

/-- Marks reach no farther than a bound exactly if all of them do. -/
theorem reach_le_iff {marks : Marks} {n : Nat} : marks.reach ≤ n ↔ ∀ m ∈ marks, level m ≤ n := by
  have hfold : ∀ start, marks.foldl (fun n m => max n (level m)) start ≤ n ↔
      start ≤ n ∧ ∀ m ∈ marks, level m ≤ n := by
    induction marks with
    | nil => simp
    | cons m rest ih =>
      intro start
      rw [List.foldl_cons, ih, Nat.max_le]
      simp [and_assoc]
  exact (hfold 0).trans (by simp)

theorem level_le_reach {marks : Marks} {m : Nat × Capture} (h : m ∈ marks) :
    level m ≤ marks.reach :=
  reach_le_iff.1 (Nat.le_refl _) m h

theorem cut_of_level_le {n : Nat} {m : Nat × Capture} (h : level m ≤ n) : cut n m = some m := by
  rcases m with ⟨i, source, start, _ | stop⟩
  · have h' : ¬ n < 2 * i - 1 := by simpa [level] using h
    simp [cut, h']
  · have h' : 2 * i ≤ n := by simpa [level] using h
    have h1 : ¬ n < 2 * i - 1 := by omega
    have h2 : ¬ n < 2 * i := by omega
    simp [cut, h1, h2]

/-- Cutting twice is cutting at the smaller bound. -/
theorem cut_cut (n n' : Nat) (m : Nat × Capture) :
    (cut n' m).bind (cut n) = cut (min n n') m := by
  rcases m with ⟨i, capture⟩
  unfold cut
  simp only
  by_cases h1 : n' < 2 * i - 1
  · have h2 : min n n' < 2 * i - 1 := by omega
    simp [h1, h2]
  · by_cases h3 : n < 2 * i - 1
    · have h2 : min n n' < 2 * i - 1 := by omega
      by_cases h4 : n' < 2 * i <;> simp [h1, h2, h3, h4]
    · have h2 : ¬ min n n' < 2 * i - 1 := by omega
      by_cases h4 : n' < 2 * i
      · have h5 : min n n' < 2 * i := by omega
        by_cases h6 : n < 2 * i <;> simp [h1, h2, h3, h4, h5, h6]
      · by_cases h6 : n < 2 * i
        · have h5 : min n n' < 2 * i := by omega
          simp [h1, h2, h3, h4, h5, h6]
        · have h5 : ¬ min n n' < 2 * i := by omega
          simp [h1, h2, h3, h4, h5, h6]

theorem upTo_upTo (n n' : Nat) (marks : Marks) :
    upTo n (upTo n' marks) = upTo (min n n') marks := by
  simp only [upTo, List.filterMap_filterMap, cut_cut]

/-- Marks within the bound are not cut. -/
theorem upTo_of_reach_le {marks : Marks} {n : Nat} (h : marks.reach ≤ n) :
    upTo n marks = marks := by
  have hlevel : ∀ m ∈ marks, level m ≤ n := reach_le_iff.1 h
  clear h
  induction marks with
  | nil => rfl
  | cons m rest ih =>
    have hm : cut n m = some m := cut_of_level_le (hlevel m List.mem_cons_self)
    have hrest : upTo n rest = rest := ih (fun m' hm' => hlevel m' (List.mem_cons_of_mem m hm'))
    rw [upTo, List.filterMap_cons_some hm]
    exact congrArg (m :: ·) hrest

/-- The marks of the groups below a number are kept. -/
theorem lookup_upTo {n i : Nat} (h : 2 * i ≤ n) (marks : Marks) :
    (upTo n marks).lookup i = marks.lookup i := by
  induction marks with
  | nil => rfl
  | cons m rest ih =>
    rcases m with ⟨j, capture⟩
    have ih' : (List.filterMap (cut n) rest).lookup i = rest.lookup i := ih
    by_cases hij : i = j
    · subst hij
      have h1 : ¬ n < 2 * i - 1 := by omega
      have h2 : ¬ n < 2 * i := by omega
      simp [upTo, cut, h1, h2]
    · have hne : (i == j) = false := by simpa using hij
      by_cases h1 : n < 2 * j - 1
      · simp [upTo, cut, h1, List.lookup_cons, hne, ih']
      · by_cases h2 : n < 2 * j <;> simp [upTo, cut, h1, h2, List.lookup_cons, hne, ih']

/-! ## Marks set after others -/

/-- The second marks were set after the first ones: taking back what comes after the first ones
gives the first ones again. -/
structure Extends (marks marks' : Marks) : Prop where
  reach_le : marks.reach ≤ marks'.reach
  upTo_eq : upTo marks.reach marks' = marks

namespace Extends

theorem refl (marks : Marks) : Extends marks marks :=
  ⟨Nat.le_refl _, upTo_of_reach_le (Nat.le_refl _)⟩

theorem trans {marks marks' marks'' : Marks} (h : Extends marks marks')
    (h' : Extends marks' marks'') : Extends marks marks'' := by
  refine ⟨Nat.le_trans h.reach_le h'.reach_le, ?_⟩
  calc upTo marks.reach marks''
      = upTo (min marks.reach marks'.reach) marks'' := by rw [Nat.min_eq_left h.reach_le]
    _ = upTo marks.reach (upTo marks'.reach marks'') := (upTo_upTo _ _ _).symm
    _ = marks := by rw [h'.upTo_eq, h.upTo_eq]

/-- Giving up a way restores the marks, inside and outside of repetitions. -/
theorem restore {marks left : Marks} (h : Extends marks left) (inside : Bool) :
    Marks.restore inside marks left = marks := by
  cases inside with
  | true => rfl
  | false => exact h.upTo_eq

end Extends

/-! ## Opening and closing a group -/

def opened (marks : Marks) (index : Nat) (source : List Char) (start : Nat) : Marks :=
  (index, ⟨source, start, none⟩) :: marks

def closed (marks : Marks) (index : Nat) (source : List Char) (start stop : Nat) : Marks :=
  (index, ⟨source, start, some stop⟩) :: marks

section

variable {marks : Marks} {top index : Nat} (htop : marks.reach ≤ 2 * top) (hindex : top < index)

include htop hindex

/-- No mark belongs to a fresh group. -/
theorem index_fresh : ∀ m ∈ marks, m.1 ≠ index := by
  intro m hm heq
  -- The level of a mark is twice its group, or one less while the group is open.
  have hlevel : level m ≤ 2 * top := Nat.le_trans (level_le_reach hm) htop
  unfold level at hlevel
  split at hlevel <;> omega

theorem filter_fresh : marks.filter (fun m => m.1 != index) = marks := by
  refine List.filter_eq_self.2 (fun m hm => ?_)
  simpa using index_fresh htop hindex m hm

theorem lookup_fresh : marks.lookup index = none := by
  refine List.lookup_eq_none_iff.2 (fun m hm => ?_)
  simpa using (index_fresh htop hindex m hm).symm

/-- The marks after the group was opened. -/
theorem opened_extends (source : List Char) (start : Nat) :
    Extends marks (opened marks index source start) := by
  have hcut : cut marks.reach (index, ⟨source, start, none⟩) = none := by
    have h : marks.reach < 2 * index - 1 := by omega
    simp [cut, h]
  refine ⟨?_, ?_⟩
  · exact reach_le_iff.2 (fun m hm => level_le_reach (List.mem_cons_of_mem _ hm))
  · rw [opened, upTo, List.filterMap_cons_none hcut]
    exact upTo_of_reach_le (Nat.le_refl _)

/-- An open group reaches to its start. -/
theorem reach_opened (source : List Char) (start : Nat) :
    (opened marks index source start).reach = 2 * index - 1 := by
  refine Nat.le_antisymm (reach_le_iff.2 ?_) ?_
  · intro m hm
    rcases List.mem_cons.1 hm with rfl | hm
    · exact Nat.le_refl _
    · have := Nat.le_trans (level_le_reach hm) htop
      omega
  · exact level_le_reach (m := (index, ⟨source, start, none⟩)) List.mem_cons_self

/-- A closed group reaches to its end. -/
theorem reach_closed (source : List Char) (start stop : Nat) :
    (closed marks index source start stop).reach = 2 * index := by
  refine Nat.le_antisymm (reach_le_iff.2 ?_) ?_
  · intro m hm
    rcases List.mem_cons.1 hm with rfl | hm
    · exact Nat.le_refl _
    · have := Nat.le_trans (level_le_reach hm) htop
      omega
  · exact level_le_reach (m := (index, ⟨source, start, some stop⟩)) List.mem_cons_self

/-- Closing a group extends the marks of the open one. -/
theorem opened_extends_closed (source : List Char) (start stop : Nat) :
    Extends (opened marks index source start) (closed marks index source start stop) := by
  have hreach := reach_opened htop hindex source start
  refine ⟨?_, ?_⟩
  · rw [hreach, reach_closed htop hindex]
    omega
  · have h1 : ¬ 2 * index - 1 < 2 * index - 1 := by omega
    have h2 : 2 * index - 1 < 2 * index := by omega
    -- Taking back the end of the group leaves it open, as it was.
    have hcut : cut (2 * index - 1) (index, ⟨source, start, some stop⟩) =
        some (index, ⟨source, start, none⟩) := by simp [cut, h2]
    rw [hreach, closed, upTo, List.filterMap_cons_some hcut]
    exact congrArg _ (upTo_of_reach_le (by omega))

end

/-! ## Captured groups -/

/-- The group was read to its end, and this is its text. -/
structure Captured (marks : Marks) (index : Nat) (text : List Char) : Prop where
  inReach : 2 * index ≤ marks.reach
  text_eq : (marks.lookup index).bind Capture.text? = some text

/-- What is captured stays captured. -/
theorem Captured.extends {marks marks' : Marks} {index : Nat} {text : List Char}
    (h : Captured marks index text) (hext : Extends marks marks') : Captured marks' index text := by
  refine ⟨Nat.le_trans h.inReach hext.reach_le, ?_⟩
  rw [← lookup_upTo h.inReach marks', hext.upTo_eq]
  exact h.text_eq

/-- A closed group captures the text that was read in it. -/
theorem closed_captured {marks : Marks} {top index : Nat} (htop : marks.reach ≤ 2 * top)
    (hindex : top < index) (text rest : List Char) (start : Nat) :
    Captured (closed marks index (text ++ rest) start (start + text.length)) index text := by
  refine ⟨Nat.le_of_eq (reach_closed htop hindex _ _ _).symm, ?_⟩
  simp [closed, Capture.text?]

end Marks

namespace Cursor

variable {c : Cursor} {top index : Nat} (htop : c.marks.reach ≤ 2 * top) (hindex : top < index)

include htop hindex

theorem openGroup_eq :
    c.openGroup index = { c with marks := c.marks.opened index c.after c.pos } := by
  simp only [openGroup, Marks.mark, Marks.filter_fresh htop hindex,
    Marks.lookup_fresh htop hindex, Option.bind_none, Marks.opened]

/-- Closing a group replaces the mark of its start. -/
theorem closeGroup_eq (before after source : List Char) (start pos : Nat) :
    (Cursor.mk before after pos (c.marks.opened index source start)).closeGroup index =
      ⟨before, after, pos, c.marks.closed index source start pos⟩ := by
  have hfilter := Marks.filter_fresh htop hindex
  simp [closeGroup, Marks.opened, Marks.mark, Marks.closed, hfilter]

end Cursor
end JavaDeps
