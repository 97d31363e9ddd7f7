import JavaDeps.Proofs.Pattern.Matching

/-!
# Groups and searching

Most patterns of this library mark groups only outside of repetitions, one after the other. Their
matches are described by the texts that they and their groups can read, and searching finds a match
wherever there is one and none before it reaches over.
-/

namespace JavaDeps

/-- Of two ways to divide a text, the one that divides it later goes on from the other one. -/
theorem split_of_append_eq {α : Type} {first second first' second' : List α}
    (h : first ++ second = first' ++ second') (hle : first'.length ≤ first.length) :
    ∃ between, first = first' ++ between ∧ second' = between ++ second := by
  rcases List.append_eq_append_iff.1 h with ⟨x, hx, hx'⟩ | ⟨x, hx, hx'⟩
  · have hlength := congrArg List.length hx
    have hnil : x = [] := by
      simp only [List.length_append] at hlength
      exact List.eq_nil_of_length_eq_zero (by omega)
    subst hnil
    exact ⟨[], by simpa using hx.symm, by simpa using hx'.symm⟩
  · exact ⟨x, hx, hx'⟩

/-- The place after some text was read and groups were marked. -/
def Cursor.past (c : Cursor) (text rest : List Char) (marks : Marks) : Cursor :=
  ⟨text.reverse ++ c.before, rest, c.pos + text.length, marks⟩

namespace Pattern

/-! ## Groups one after the other -/

/-- The texts that a pattern can read, with the texts of its groups. -/
def Matches : Pattern → List Char → List (Nat × List Char) → Prop
  | .seq p q, text, groups => ∃ first second firstGroups secondGroups,
      text = first ++ second ∧ groups = firstGroups ++ secondGroups ∧
        p.Matches first firstGroups ∧ q.Matches second secondGroups
  | .group index p, text, groups => groups = [(index, text)] ∧ p.Reads text
  | p, text, groups => groups = [] ∧ p.Reads text

/-- Plain patterns match what they read, without groups. -/
theorem matches_plain {p : Pattern} (hp : p.isPlain = true) {text : List Char}
    {groups : List (Nat × List Char)} : p.Matches text groups ↔ groups = [] ∧ p.Reads text := by
  induction p generalizing text groups with
  | seq p q ihp ihq =>
    have hpq : p.isPlain = true ∧ q.isPlain = true := by simpa [isPlain] using hp
    constructor
    · rintro ⟨first, second, _, _, rfl, rfl, hfirst, hsecond⟩
      rcases (ihp hpq.1).1 hfirst with ⟨rfl, hreads⟩
      rcases (ihq hpq.2).1 hsecond with ⟨rfl, hreads'⟩
      exact ⟨rfl, first, second, rfl, hreads, hreads'⟩
    · rintro ⟨rfl, first, second, rfl, hfirst, hsecond⟩
      exact ⟨first, second, [], [], rfl, rfl, (ihp hpq.1).2 ⟨rfl, hfirst⟩,
        (ihq hpq.2).2 ⟨rfl, hsecond⟩⟩
  | group index p ih => simp [isPlain] at hp
  | _ => exact Iff.rfl

/-- A plain part before the rest of a pattern has no groups. -/
theorem matches_plain_append {p q : Pattern} (hp : p.isPlain = true) {text : List Char}
    {groups : List (Nat × List Char)} (h : (p ++ q).Matches text groups) :
    ∃ first second, text = first ++ second ∧ p.Reads first ∧ q.Matches second groups := by
  rcases h with ⟨first, second, firstGroups, secondGroups, rfl, rfl, hfirst, hsecond⟩
  rcases (matches_plain hp).1 hfirst with ⟨rfl, hreads⟩
  exact ⟨first, second, rfl, hreads, hsecond⟩

/-- A plain part after the rest of a pattern has no groups. -/
theorem matches_append_plain {p q : Pattern} (hq : q.isPlain = true) {text : List Char}
    {groups : List (Nat × List Char)} (h : (p ++ q).Matches text groups) :
    ∃ first second, text = first ++ second ∧ p.Matches first groups ∧ q.Reads second := by
  rcases h with ⟨first, second, firstGroups, secondGroups, rfl, rfl, hfirst, hsecond⟩
  rcases (matches_plain hq).1 hsecond with ⟨rfl, hreads⟩
  exact ⟨first, second, rfl, by simpa using hfirst, hreads⟩

/-- Reads a pattern as plain parts and groups around plain parts, one after the other. The numbers
of the groups have to go up from the given one; the last one is given back. -/
def straight? : Pattern → Nat → Option Nat
  | .seq p q, n => (p.straight? n).bind q.straight?
  | .group index p, n => if n < index && p.isPlain then some index else none
  | p, n => if p.isPlain then some n else none

def isSearchable : Pattern → Bool
  | .seq p q => p.isSearchable && q.isSearchable
  | .group _ p => p.isSimple
  | p => p.isSimple

/-- Wherever the continuation fails with marks set after the given ones and up to a group, it leaves
marks behind that were set after those. -/
def Steady (k : Continuation) (marks : Marks) (top : Nat) : Prop :=
  ∀ d left, marks.Extends d.marks → d.marks.reach ≤ 2 * top → k d = .lost left →
    d.marks.Extends left

/-- A steady continuation stays so when the marks are extended. -/
theorem Steady.extends {k : Continuation} {marks marks' : Marks} {top : Nat}
    (h : Steady k marks top) (hext : marks.Extends marks') : Steady k marks' top :=
  fun d left hd hreach hlost => h d left (hext.trans hd) hreach hlost

/-- A steady continuation is calm on marks within its reach. -/
theorem Steady.calm {k : Continuation} {marks : Marks} {top : Nat} (h : Steady k marks top)
    (hreach : marks.reach ≤ 2 * top) : Calm k marks := by
  intro d left hd hlost
  have hleft := h d left (hd ▸ Marks.Extends.refl marks) (hd ▸ hreach) hlost
  exact hd ▸ hleft

/-- What a run of a pattern with groups one after the other gives: a place that the continuation
accepts after a text of the pattern was read and its groups were marked, or marks set after those at
the start. -/
def Finds (p : Pattern) (top : Nat) (k : Continuation) (c : Cursor) : Outcome → Prop
  | .found e => ∃ text rest groups marks,
      c.after = text ++ rest ∧ p.Matches text groups ∧
      c.marks.Extends marks ∧ marks.reach ≤ 2 * top ∧
      (∀ g ∈ groups, marks.Captured g.1 g.2) ∧
      (c.marks.anyReversed = false → marks.anyReversed = false) ∧
      k (c.past text rest marks) = .found e
  | .lost left => c.marks.Extends left

/-- A plain pattern that answers finds what it reads. -/
theorem finds_plain {p : Pattern} {top : Nat} {k : Continuation} {c : Cursor} {o : Outcome}
    (hmatches : ∀ text, p.Reads text → p.Matches text [])
    (hreach : c.marks.reach ≤ 2 * top) (h : Answers k c p.Reads o) : p.Finds top k c o := by
  cases o with
  | lost left => exact h
  | found e =>
    rcases h with ⟨text, rest, hafter, hreads, hk⟩
    exact ⟨text, rest, [], c.marks, hafter, hmatches text hreads, Marks.Extends.refl _, hreach,
      by simp, id, hk⟩

section

variable {n index : Nat} {k : Continuation} {c : Cursor} (hindex : n < index)
  (hreach : c.marks.reach ≤ 2 * n)

include hindex hreach

theorem run_group (bound : Nat) (inside : Bool) (p : Pattern) :
    run bound inside (.group index p) k c =
      run bound inside p (fun d => k (d.closeGroup index))
        { c with marks := c.marks.opened index c.after c.pos } := by
  rw [run, Cursor.openGroup_eq hreach hindex]

theorem extends_closed (stop : Nat) :
    c.marks.Extends (c.marks.closed index c.after c.pos stop) :=
  (Marks.opened_extends hreach hindex _ _).trans
    (Marks.opened_extends_closed hreach hindex _ _ stop)

/-- What fails behind a group leaves it opened. -/
theorem calm_closeGroup (hk : Steady k c.marks index) :
    Calm (fun d => k (d.closeGroup index)) (c.marks.opened index c.after c.pos) := by
  rintro ⟨before, after, pos, marks⟩ left hd hlost
  have hd' : marks = c.marks.opened index c.after c.pos := hd
  subst hd'
  have hlost' : k ⟨before, after, pos, c.marks.closed index c.after c.pos pos⟩ = .lost left := by
    rw [← Cursor.closeGroup_eq hreach hindex]
    exact hlost
  have htop := Nat.le_of_eq (Marks.reach_closed hreach hindex c.after c.pos pos)
  exact (Marks.opened_extends_closed hreach hindex _ _ pos).trans
    (hk _ left (extends_closed hindex hreach pos) htop hlost')

/-- Closing a group after a step forward captures the text of the step. -/
theorem closeGroup_forward (text rest : List Char) :
    (Cursor.forward { c with marks := c.marks.opened index c.after c.pos } text rest).closeGroup
        index =
      c.past text rest (c.marks.closed index c.after c.pos (c.pos + text.length)) :=
  Cursor.closeGroup_eq hreach hindex _ _ _ _ _

/-- A group is opened, read and closed. -/
theorem finds_group {p : Pattern} (hp : p.isPlain = true) (bound : Nat) (inside : Bool)
    (hk : Steady k c.marks index) :
    (Pattern.group index p).Finds index k c (run bound inside (.group index p) k c) := by
  have hrun := run_plain hp bound inside
    (c := { c with marks := c.marks.opened index c.after c.pos }) (calm_closeGroup hindex hreach hk)
  rw [← run_group hindex hreach] at hrun
  cases hout : run bound inside (.group index p) k c with
  | lost left =>
    rw [hout] at hrun
    exact (Marks.opened_extends hreach hindex _ _).trans hrun
  | found e =>
    rw [hout] at hrun
    rcases hrun with ⟨text, rest, hafter, hreads, hke⟩
    have hafter' : c.after = text ++ rest := hafter
    have hke' : k (c.past text rest
        (c.marks.closed index c.after c.pos (c.pos + text.length))) = .found e := by
      rw [← closeGroup_forward hindex hreach]
      exact hke
    refine ⟨text, rest, [(index, text)], _, hafter', ⟨rfl, hreads⟩, extends_closed hindex hreach _,
      Nat.le_of_eq (Marks.reach_closed hreach hindex _ _ _), ?_, ?_, hke'⟩
    · intro g hg
      rcases List.mem_singleton.1 hg with rfl
      rw [hafter']
      exact Marks.closed_captured hreach hindex text rest c.pos
    · intro h
      simpa [Marks.anyReversed, Marks.closed, Capture.isReversed] using h

end

theorem finds_part {p : Pattern} {n top : Nat} (hmatches : ∀ text, p.Reads text → p.Matches text [])
    (hp : (if p.isPlain = true then some n else none) = some top) (bound : Nat) (inside : Bool)
    {k : Continuation} {c : Cursor} (hreach : c.marks.reach ≤ 2 * n) (hk : Steady k c.marks top) :
    p.Finds top k c (run bound inside p k c) := by
  split at hp
  · rename_i hplain
    cases hp
    exact finds_plain hmatches hreach (run_plain hplain bound inside (hk.calm hreach))
  · cases hp

/-- A run of a pattern with groups one after the other reads a text of the pattern and marks its
groups. -/
theorem run_straight {p : Pattern} {n top : Nat} (hp : p.straight? n = some top) (bound : Nat)
    (inside : Bool) {k : Continuation} {c : Cursor} (hreach : c.marks.reach ≤ 2 * n)
    (hk : Steady k c.marks top) : p.Finds top k c (run bound inside p k c) := by
  -- The continuation is general: to the first part of a sequence, the second one is part of it.
  induction p generalizing n top k c with
  | seq p q ihp ihq =>
    rcases Option.bind_eq_some_iff.1 hp with ⟨middle, hpm, hqm⟩
    have hq : ∀ d : Cursor, c.marks.Extends d.marks → d.marks.reach ≤ 2 * middle →
        q.Finds top k d (run bound inside q k d) :=
      fun d hd hd' => ihq hqm hd' (hk.extends hd)
    have hsteady : Steady (fun d => run bound inside q k d) c.marks middle := by
      intro d left hd hd' hlost
      have h := hq d hd hd'
      rwa [show run bound inside q k d = .lost left from hlost] at h
    have hfirst := ihp hpm hreach hsteady
    unfold run
    cases hout : run bound inside p (fun d => run bound inside q k d) c with
    | lost left => rwa [hout] at hfirst
    | found e =>
      rw [hout] at hfirst
      rcases hfirst with ⟨text, rest, groups, marks, hafter, hmatch, hext, htop, hcap, hrev, hke⟩
      have hsecond := hq (c.past text rest marks) hext htop
      rw [show run bound inside q k (c.past text rest marks) = .found e from hke]
        at hsecond
      rcases hsecond with
        ⟨text', rest', groups', marks', hafter', hmatch', hext', htop', hcap', hrev', hke'⟩
      have hrest : rest = text' ++ rest' := hafter'
      have hext'' : marks.Extends marks' := hext'
      refine ⟨text ++ text', rest', groups ++ groups', marks',
        by rw [hafter, hrest, List.append_assoc],
        ⟨text, text', groups, groups', rfl, rfl, hmatch, hmatch'⟩, hext.trans hext'', htop', ?_,
        fun h => hrev' (hrev h), ?_⟩
      · -- Groups of the first part stay captured, as the second one marks higher numbers only.
        intro g hg
        rcases List.mem_append.1 hg with hg | hg
        · exact (hcap g hg).extends hext''
        · exact hcap' g hg
      · rw [← hke']
        simp [Cursor.past, Nat.add_assoc]
  | group index p ih =>
    simp only [straight?, Bool.and_eq_true, decide_eq_true_eq] at hp
    split at hp
    · rename_i h
      cases hp
      exact finds_group h.1 hreach h.2 bound inside hk
    · cases hp
  | _ =>
    refine finds_part ?_ hp bound inside hreach hk
    exact fun _ h => ⟨rfl, h⟩

theorem lost_part {p : Pattern} {n top : Nat}
    (hp : (if p.isPlain = true then some n else none) = some top) (hs : p.isSimple = true)
    {bound : Nat} {inside : Bool} {k : Continuation} {c : Cursor}
    (hreach : c.marks.reach ≤ 2 * n) (hk : Steady k c.marks top) {left : Marks}
    (hlost : run bound inside p k c = .lost left) {text rest : List Char}
    (hafter : c.after = text ++ rest) (hreads : p.Reads text) :
    ∃ left', k (c.forward text rest) = .lost left' ∧ c.marks.reach ≤ 2 * top := by
  split at hp
  · cases hp
    rcases run_simple_lost hs (hk.calm hreach) hlost hafter hreads with ⟨left', h⟩
    exact ⟨left', h, hreach⟩
  · cases hp

/-- A searchable pattern that fails was refused after every text that it can read. -/
theorem run_searchable_lost {p : Pattern} {n top : Nat} (hp : p.straight? n = some top)
    (hs : p.isSearchable = true) {bound : Nat} {inside : Bool} {k : Continuation} {c : Cursor}
    (hreach : c.marks.reach ≤ 2 * n) (hk : Steady k c.marks top) {left : Marks}
    (hlost : run bound inside p k c = .lost left) {text rest : List Char}
    {groups : List (Nat × List Char)} (hafter : c.after = text ++ rest)
    (hmatch : p.Matches text groups) :
    ∃ d left', d.after = rest ∧ c.marks.Extends d.marks ∧ d.marks.reach ≤ 2 * top ∧
      k d = .lost left' := by
  induction p generalizing n top k c left text rest groups with
  | seq p q ihp ihq =>
    have hpq : p.isSearchable = true ∧ q.isSearchable = true := by simpa [isSearchable] using hs
    rcases Option.bind_eq_some_iff.1 hp with ⟨middle, hpm, hqm⟩
    rcases hmatch with ⟨first, second, firstGroups, secondGroups, rfl, rfl, hfirst, hsecond⟩
    -- What follows the first part is as steady as the continuation.
    have hsteady : Steady (fun d => run bound inside q k d) c.marks middle := by
      intro d left hd hd' hlost
      have h := run_straight hqm bound inside hd' (hk.extends hd)
      rwa [show run bound inside q k d = .lost left from hlost] at h
    rcases ihp hpm hpq.1 hreach hsteady hlost (by rw [hafter, List.append_assoc]) hfirst with
      ⟨d, left', hd, hext, htop, hq⟩
    rcases ihq hqm hpq.2 htop (hk.extends hext) hq hd hsecond with
      ⟨e, left'', he, hext', htop', h⟩
    exact ⟨e, left'', he, hext.trans hext', htop', h⟩
  | group index p ih =>
    simp only [straight?, Bool.and_eq_true, decide_eq_true_eq] at hp
    split at hp
    · rename_i h
      cases hp
      rw [run_group h.1 hreach] at hlost
      rcases run_simple_lost (c := { c with marks := c.marks.opened index c.after c.pos }) hs
        (calm_closeGroup h.1 hreach hk) hlost hafter hmatch.2 with ⟨left', hlost'⟩
      rw [closeGroup_forward h.1 hreach] at hlost'
      exact ⟨_, left', rfl, extends_closed h.1 hreach _,
        Nat.le_of_eq (Marks.reach_closed hreach h.1 _ _ _), hlost'⟩
    · cases hp
  | _ =>
    rcases lost_part hp hs hreach hk hlost hafter hmatch.2 with ⟨left', hlost', htop⟩
    exact ⟨c.forward text rest, left', rfl, Marks.Extends.refl _, htop, hlost'⟩

/-! ## Searching -/

/-- The match found reads a piece of the text between two others, with its groups. -/
structure Found.Fits (p : Pattern) (before piece rest : List Char) (found : Found) : Prop where
  start_eq : found.start = before.length
  before_eq : found.stop.before = (before ++ piece).reverse
  after_eq : found.stop.after = rest
  pos_eq : found.stop.pos = (before ++ piece).length
  groups : ∃ groups, p.Matches piece groups ∧ ∀ g ∈ groups, found.stop.capture? g.1 = some g.2
  unreversed : found.stop.marks.anyReversed = false

def bodies : Pattern → List (Nat × Pattern)
  | .seq p q => p.bodies ++ q.bodies
  | .group index p => [(index, p)]
  | _ => []

/-- Every group of a match has read its text by its own pattern. -/
theorem Matches.exists_of_mem_bodies {p : Pattern} {text : List Char}
    {groups : List (Nat × List Char)} (h : p.Matches text groups) {b : Nat × Pattern}
    (hb : b ∈ p.bodies) : ∃ t, (b.1, t) ∈ groups ∧ b.2.Reads t := by
  induction p generalizing text groups with
  | seq p q ihp ihq =>
    rcases h with ⟨_, _, _, _, -, rfl, hp, hq⟩
    rcases List.mem_append.1 hb with hb | hb
    · exact (ihp hp hb).imp (fun _ => And.imp_left (List.mem_append_left _))
    · exact (ihq hq hb).imp (fun _ => And.imp_left (List.mem_append_right _))
  | group index p =>
    rcases h with ⟨rfl, hreads⟩
    rw [List.mem_singleton.1 hb]
    exact ⟨text, List.mem_singleton.2 rfl, hreads⟩
  | _ => cases hb

/-- What a group captures is read by its pattern. -/
theorem Found.Fits.reads_group {p body : Pattern} {before piece rest : List Char} {f : Found}
    (h : f.Fits p before piece rest) {index : Nat} (hbody : (index, body) ∈ p.bodies) :
    body.Reads (f.stop.group index).toList := by
  rcases h.groups with ⟨groups, hmatch, hgroups⟩
  rcases hmatch.exists_of_mem_bodies hbody with ⟨t, ht, hreads⟩
  simpa [Cursor.group, hgroups _ ht] using hreads

/-- Nothing is left behind by a search, which accepts every place. -/
theorem steady_found (marks : Marks) (top : Nat) : Steady .found marks top :=
  fun _ _ _ _ h => by cases h

section

variable {p : Pattern} {top : Nat} (hp : p.straight? 0 = some top) (bound : Nat)

include hp

/-- A run that succeeds fits a piece of the text. -/
theorem fits_of_run {before after : List Char} {e : Cursor}
    (h : run bound false p .found ⟨before.reverse, after, before.length, []⟩ = .found e) :
    ∃ piece rest, after = piece ++ rest ∧ Found.Fits p before piece rest ⟨before.length, e⟩ := by
  have hrun := run_straight hp bound false (c := ⟨before.reverse, after, before.length, []⟩)
    (Nat.le_refl _) (steady_found _ top)
  rw [h] at hrun
  rcases hrun with ⟨piece, rest, groups, marks, hafter, hmatch, -, -, hcap, hrev, hke⟩
  rcases Outcome.found.inj hke with rfl
  refine ⟨piece, rest, hafter, rfl, ?_, rfl, ?_, ⟨groups, hmatch, fun g hg => (hcap g hg).text_eq⟩,
    hrev rfl⟩
  · simp [Cursor.past]
  · simp [Cursor.past]

omit hp in
/-- The leftmost match is what a run finds somewhere. -/
theorem run_of_findFrom {before after : List Char} {f : Found}
    (h : findFrom bound p before.reverse before.length after = some f) :
    ∃ skipped rest, after = skipped ++ rest ∧ f.start = (before ++ skipped).length ∧
      run bound false p .found ⟨(before ++ skipped).reverse, rest, (before ++ skipped).length, []⟩ =
        .found f.stop := by
  induction after generalizing before with
  | nil =>
    unfold findFrom at h
    cases hrun : run bound false p .found ⟨before.reverse, [], before.length, []⟩ with
    | lost left => simp [hrun, Outcome.found?] at h
    | found e =>
      have hf : f = ⟨before.length, e⟩ := by simpa [hrun, Outcome.found?] using h.symm
      exact ⟨[], [], rfl, by simp [hf], by simpa [hf] using hrun⟩
  | cons x after' ih =>
    unfold findFrom at h
    cases hrun : run bound false p .found ⟨before.reverse, x :: after', before.length, []⟩ with
    | found e =>
      have hf : f = ⟨before.length, e⟩ := by simpa [hrun] using h.symm
      exact ⟨[], x :: after', rfl, by simp [hf], by simpa [hf] using hrun⟩
    | lost left =>
      have hnext : findFrom bound p (before ++ [x]).reverse (before ++ [x]).length after' =
          some f := by
        simpa [hrun] using h
      rcases ih hnext with ⟨skipped, rest, hafter, hstart, hfound⟩
      rw [← List.append_cons before x skipped] at hstart hfound
      exact ⟨x :: skipped, rest, by rw [hafter]; rfl, hstart, hfound⟩

/-- The leftmost match fits somewhere. -/
theorem fits_of_findFrom {before after : List Char} {f : Found}
    (h : findFrom bound p before.reverse before.length after = some f) :
    ∃ skipped piece rest, after = skipped ++ (piece ++ rest) ∧
      f.Fits p (before ++ skipped) piece rest := by
  rcases run_of_findFrom bound h with ⟨skipped, rest, hafter, hstart, hrun⟩
  rcases fits_of_run hp bound hrun with ⟨piece, rest', hrest, hfits⟩
  rw [← hstart] at hfits
  exact ⟨skipped, piece, rest', by rw [hafter, hrest], hfits⟩

omit hp in
/-- Where a run finds something, the leftmost match starts there or earlier. -/
theorem findFrom_of_run {before skipped after : List Char} {e : Cursor}
    (h : run bound false p .found
      ⟨(before ++ skipped).reverse, after, (before ++ skipped).length, []⟩ = .found e) :
    ∃ f, findFrom bound p before.reverse before.length (skipped ++ after) = some f ∧
      f.start ≤ (before ++ skipped).length := by
  induction skipped generalizing before with
  | nil =>
    rw [List.append_nil] at h
    refine ⟨⟨before.length, e⟩, ?_, by simp⟩
    cases after with
    | nil => simp [findFrom, h, Outcome.found?]
    | cons x after' => simp [findFrom, h]
  | cons x skipped' ih =>
    cases hrun : run bound false p .found
        ⟨before.reverse, x :: (skipped' ++ after), before.length, []⟩ with
    | found e => exact ⟨⟨before.length, e⟩, by simp [findFrom, hrun], by simp⟩
    | lost left =>
      rw [List.append_cons before x skipped'] at h ⊢
      rcases ih h with ⟨f, hf, hstart⟩
      exact ⟨f, by simpa [findFrom, hrun] using hf, hstart⟩

/-- Where a searchable pattern matches, the leftmost match starts there or earlier. -/
theorem findFrom_of_matches (hs : p.isSearchable = true) {piece : List Char}
    {groups : List (Nat × List Char)} (hmatch : p.Matches piece groups)
    (before skipped rest : List Char) :
    ∃ f, findFrom bound p before.reverse before.length (skipped ++ (piece ++ rest)) = some f ∧
      f.start ≤ (before ++ skipped).length := by
  cases hrun : run bound false p .found
      ⟨(before ++ skipped).reverse, piece ++ rest, (before ++ skipped).length, []⟩ with
  | found e => exact findFrom_of_run bound hrun
  | lost left =>
    -- At the place of the match the run cannot fail: the search accepts every place it ends at.
    rcases run_searchable_lost hp hs (Nat.le_refl _) (steady_found _ top) hrun rfl hmatch with
      ⟨d, left', -, -, -, h⟩
    cases h

end

section

variable {p : Pattern} {bound : Nat}

/-- After a match the search goes on behind it, or behind one more character when the match is
empty. -/
theorem findAllFrom_succ {before after skipped piece rest : List Char} {first : Found}
    (hfirst : findFrom bound p before.reverse before.length after = some first)
    (hfits : first.Fits p (before ++ skipped) piece rest) (count : Nat) :
    ∃ tail, findAllFrom bound p (count + 1) before.reverse before.length after = first :: tail ∧
      (piece ++ rest = [] ∧ tail = [] ∨
        ∃ more rest', piece ++ rest = more ++ rest' ∧ 0 < more.length ∧
          more.length ≤ max 1 piece.length ∧
          tail = findAllFrom bound p count (before ++ skipped ++ more).reverse
            (before ++ skipped ++ more).length rest') := by
  -- The search tells an empty match by its places, this statement by the text it read.
  have hempty : (first.stop.pos == first.start) = piece.isEmpty := by
    rw [hfits.pos_eq, hfits.start_eq]
    cases piece <;> simp
  rw [findAllFrom, hfirst]
  dsimp only
  rw [hempty, hfits.before_eq, hfits.pos_eq, hfits.after_eq]
  refine ⟨_, rfl, ?_⟩
  cases piece with
  | cons x piece' => exact Or.inr ⟨x :: piece', rest, rfl, by simp, by simp, rfl⟩
  | nil =>
    cases rest with
    | nil => exact Or.inl ⟨rfl, rfl⟩
    | cons x rest' => exact Or.inr ⟨[x], rest', rfl, by simp, by simp, by simp [Nat.add_assoc]⟩

variable {top : Nat} (hp : p.straight? 0 = some top)

include hp

/-- Every match of a search for all of them fits somewhere. -/
theorem fits_of_findAllFrom {count : Nat} {before after : List Char} {f : Found}
    (h : f ∈ findAllFrom bound p count before.reverse before.length after) :
    ∃ skipped piece rest, after = skipped ++ (piece ++ rest) ∧
      f.Fits p (before ++ skipped) piece rest := by
  induction count generalizing before after with
  | zero => cases h
  | succ count ih =>
    cases hfirst : findFrom bound p before.reverse before.length after with
    | none => simp [findAllFrom, hfirst] at h
    | some first =>
      rcases fits_of_findFrom hp bound hfirst with ⟨skipped, piece, rest, hafter, hfits⟩
      rcases findAllFrom_succ hfirst hfits count with ⟨tail, heq, htail⟩
      rw [heq] at h
      rcases List.mem_cons.1 h with rfl | h
      · exact ⟨skipped, piece, rest, hafter, hfits⟩
      · rcases htail with ⟨-, rfl⟩ | ⟨more, rest', hmore, -, -, rfl⟩
        · cases h
        · rcases ih h with ⟨skipped', piece', rest'', hrest', hfits'⟩
          refine ⟨skipped ++ (more ++ skipped'), piece', rest'', ?_, ?_⟩
          · rw [hafter, hmore, hrest']
            simp
          · simpa using hfits'

omit hp in
/-- A pattern that is found runs at some place of the text. -/
theorem run_of_find? {text : List Char} {f : Found} (h : p.find? text = some f) :
    ∃ skipped rest, text = skipped ++ rest ∧
      run (roundBound text) false p .found ⟨skipped.reverse, rest, skipped.length, []⟩ =
        .found f.stop := by
  have h' : findFrom (roundBound text) p ([] : List Char).reverse ([] : List Char).length text =
      some f := h
  rcases run_of_findFrom _ h' with ⟨skipped, rest, htext, -, hrun⟩
  exact ⟨skipped, rest, htext, hrun⟩

omit hp in
/-- A pattern that runs at some place is found. -/
theorem find?_of_run {skipped rest : List Char} {e : Cursor}
    (h : run (roundBound (skipped ++ rest)) false p .found
      ⟨skipped.reverse, rest, skipped.length, []⟩ = .found e) :
    ∃ f, p.find? (skipped ++ rest) = some f := by
  have hfrom : ∃ f,
      findFrom _ p ([] : List Char).reverse ([] : List Char).length (skipped ++ rest) =
      some f ∧ f.start ≤ ([] ++ skipped).length := findFrom_of_run _ h
  rcases hfrom with ⟨f, hf, -⟩
  exact ⟨f, hf⟩

/-- No match that starts before a place reaches over it. -/
def Clear (p : Pattern) (before after : List Char) : Prop :=
  ∀ skipped piece rest groups, before ++ after = skipped ++ (piece ++ rest) →
    p.Matches piece groups → skipped.length < before.length →
    (skipped ++ piece).length ≤ before.length

/-- Where a searchable pattern matches and no earlier match reaches over, a match is found. -/
theorem findAllFrom_of_matches (hs : p.isSearchable = true) {count : Nat} (before : List Char)
    {skipped piece rest : List Char} {groups : List (Nat × List Char)}
    (hmatch : p.Matches piece groups) (hclear : p.Clear skipped (piece ++ rest))
    (hcount : skipped.length < count) :
    ∃ f ∈ findAllFrom bound p count before.reverse before.length (skipped ++ (piece ++ rest)),
      f.start = (before ++ skipped).length := by
  induction count generalizing before skipped with
  | zero => omega
  | succ count ih =>
    rcases findFrom_of_matches hp bound hs hmatch before skipped rest with ⟨first, hfirst, hstart⟩
    rcases fits_of_findFrom hp bound hfirst with ⟨early, piece', rest', hafter, hfits⟩
    rcases findAllFrom_succ hfirst hfits count with ⟨tail, heq, htail⟩
    rcases hfits.groups with ⟨groups', hmatch', -⟩
    have hearly : early.length ≤ skipped.length := by
      simpa [hfits.start_eq] using hstart
    -- Either the first match is earlier and does not reach over, or it is at the place already.
    rcases Nat.lt_or_eq_of_le hearly with hlt | hsame
    · have hover := hclear early piece' rest' groups' hafter hmatch' hlt
      rcases htail with ⟨hnil, -⟩ | ⟨more, rest'', hmore, hpos, hle, rfl⟩
      · have hlength := congrArg List.length hafter
        rw [hnil] at hlength
        simp only [List.length_append, List.length_nil] at hlength
        omega
      · -- The search goes on at a place that is still before the match.
        have hafter' : skipped ++ (piece ++ rest) = (early ++ more) ++ rest'' := by
          rw [hafter, hmore, List.append_assoc]
        have hshort : (early ++ more).length ≤ skipped.length := by
          simp only [List.length_append] at hover ⊢
          omega
        rcases split_of_append_eq hafter' hshort with ⟨skipped', rfl, rfl⟩
        have hclear' : p.Clear skipped' (piece ++ rest) := by
          intro s pc r g hs hm hlt'
          have h := hclear (early ++ more ++ s) pc r g (by simp [hs]) hm (by simp; omega)
          simp only [List.length_append] at h ⊢
          omega
        have hcount' : skipped'.length < count := by
          simp only [List.length_append] at hcount
          omega
        rcases ih (before ++ early ++ more) hclear' hcount' with ⟨f, hf, hfstart⟩
        exact ⟨f, by rw [heq]; exact List.mem_cons_of_mem _ hf, by simpa using hfstart⟩
    · exact ⟨first, by rw [heq]; exact List.mem_cons_self, by simp [hfits.start_eq, hsame]⟩

/-- What is found fits a piece of the text. -/
theorem fits_of_find? {text : List Char} {f : Found} (h : p.find? text = some f) :
    ∃ before piece rest, text = before ++ (piece ++ rest) ∧ f.Fits p before piece rest := by
  have h' : findFrom (roundBound text) p ([] : List Char).reverse ([] : List Char).length text =
      some f := h
  simpa using fits_of_findFrom hp _ h'

/-- All that is found fits a piece of the text. -/
theorem fits_of_findAll {text : List Char} {f : Found} (h : f ∈ p.findAll text) :
    ∃ before piece rest, text = before ++ (piece ++ rest) ∧ f.Fits p before piece rest := by
  have h' : f ∈ findAllFrom (roundBound text) p (text.length + 1) ([] : List Char).reverse
      ([] : List Char).length text := h
  simpa using fits_of_findAllFrom hp h'

/-- A match with nothing in its way is found. -/
theorem findAll_of_matches (hs : p.isSearchable = true) {before piece rest : List Char}
    {groups : List (Nat × List Char)} (hmatch : p.Matches piece groups)
    (hclear : p.Clear before (piece ++ rest)) :
    ∃ f ∈ p.findAll (before ++ (piece ++ rest)), f.start = before.length := by
  have hcount : before.length < (before ++ (piece ++ rest)).length + 1 := by
    simp only [List.length_append]
    omega
  have h : ∃ f ∈ findAllFrom (roundBound (before ++ (piece ++ rest))) p _ _ _ _, _ :=
    findAllFrom_of_matches hp hs [] hmatch hclear hcount
  exact h

/-- The match that is found at a place reads some text from there on, with its groups. -/
theorem findAll_at (hs : p.isSearchable = true) {before piece rest : List Char}
    {groups : List (Nat × List Char)} (hmatch : p.Matches piece groups)
    (hclear : p.Clear before (piece ++ rest)) :
    ∃ f ∈ p.findAll (before ++ (piece ++ rest)), ∃ piece' rest' groups',
      piece ++ rest = piece' ++ rest' ∧ p.Matches piece' groups' ∧
      ∀ g ∈ groups', f.stop.capture? g.1 = some g.2 := by
  rcases findAll_of_matches hp hs hmatch hclear with ⟨f, hf, hstart⟩
  rcases fits_of_findAll hp hf with ⟨before', piece', rest', htext, hfits⟩
  rcases hfits.groups with ⟨groups', hmatch', hgroups'⟩
  have hlength : before.length = before'.length := hstart.symm.trans hfits.start_eq
  exact ⟨f, hf, piece', rest', groups', (List.append_inj htext hlength).2, hmatch', hgroups'⟩

omit hp

/-- To show that no earlier match reaches over a place it is enough to look at the matches that
begin before it and end behind it. -/
theorem clear_of {before after : List Char}
    (h : ∀ skipped first second rest groups, before = skipped ++ first → after = second ++ rest →
      first ≠ [] → second ≠ [] → ¬ p.Matches (first ++ second) groups) : p.Clear before after := by
  intro skipped piece rest groups heq hmatch hlt
  refine Nat.le_of_not_lt (fun hover => ?_)
  -- A match that reaches over is divided at the place into two pieces that are not empty.
  rcases split_of_append_eq heq (Nat.le_of_lt hlt) with ⟨first, rfl, hfirst⟩
  have hlong : first.length ≤ piece.length := by
    simp only [List.length_append] at hover
    omega
  rcases split_of_append_eq hfirst hlong with ⟨second, rfl, hsecond⟩
  refine h skipped first second rest groups rfl hsecond ?_ ?_ hmatch
  · rintro rfl
    simp at hlt
  · rintro rfl
    simp at hover

/-- What is given back of all matches was read by the groups. -/
theorem reads_captures1 (hp : p.straight? 0 = some top) {body : Pattern}
    (hbodies : p.bodies = [(1, body)]) {text : List Char} {s : String} (h : s ∈ p.captures1 text) :
    body.Reads s.toList := by
  rcases List.mem_map.1 h with ⟨f, hf, rfl⟩
  rcases fits_of_findAll hp hf with ⟨before, piece, rest, -, hfits⟩
  exact hfits.reads_group (by simp [hbodies])

/-- Two captures are read by the patterns of their groups. -/
theorem reads_captures2 (hp : p.straight? 0 = some top) {first second : Pattern}
    (hbodies : p.bodies = [(1, first), (2, second)]) {text : List Char} {c : String × String}
    (h : c ∈ p.captures2 text) : first.Reads c.1.toList ∧ second.Reads c.2.toList := by
  rcases List.mem_map.1 h with ⟨f, hf, rfl⟩
  rcases fits_of_findAll hp hf with ⟨before, piece, rest, -, hfits⟩
  exact ⟨hfits.reads_group (by simp [hbodies]), hfits.reads_group (by simp [hbodies])⟩

end

end Pattern
end JavaDeps
