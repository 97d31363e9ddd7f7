import JavaDeps.Proofs.Pattern.Search

/-!
# Searching as scanning

A search for all matches goes through the text from left to right. Where what a pattern finds at a
place depends only on the text from there on, the search can be described without the pattern: a
function tells what stands at a place, and the text is scanned with it.
-/

namespace JavaDeps

/-! ## Scanning -/

/-- What stands at the start of a text, and over how many characters. -/
abbrev Spot := List Char → Option (String × Nat)

/-- Collects what stands in a text, from left to right and without overlaps. The number counts the
characters that are still to be passed over. -/
def scan (spot : Spot) : Nat → List Char → List String
  | _, [] => []
  | n + 1, _ :: rest => scan spot n rest
  | 0, c :: rest => match spot (c :: rest) with
    | some (name, length) => name :: scan spot (length - 1) rest
    | none => scan spot 0 rest

variable {spot : Spot}

/-- A scan goes on behind the characters it drops. -/
theorem scan_drop (n : Nat) (text : List Char) : scan spot n text = scan spot 0 (text.drop n) := by
  induction text generalizing n with
  | nil => simp [scan]
  | cons c rest ih =>
    cases n with
    | zero => rfl
    | succ n => exact ih n

/-- Where nothing is spotted, the scan goes on with the next character. -/
theorem scan_of_none {c : Char} {rest : List Char} (h : spot (c :: rest) = none) :
    scan spot 0 (c :: rest) = scan spot 0 rest := by
  rw [scan, h]

/-- What is spotted is named, and the scan goes on behind it. -/
theorem scan_of_some {piece rest : List Char} {name : String} (hne : piece ≠ [])
    (h : spot (piece ++ rest) = some (name, piece.length)) :
    scan spot 0 (piece ++ rest) = name :: scan spot 0 rest := by
  cases piece with
  | nil => exact absurd rfl hne
  | cons c piece =>
    have hdrop : (piece ++ rest).drop piece.length = rest := List.drop_left
    rw [List.cons_append] at h ⊢
    rw [scan, h]
    simp only [List.length_cons, Nat.add_sub_cancel]
    rw [scan_drop, hdrop]

/-- What stands nowhere in the first part of a text is scanned over. -/
theorem scan_append_of_none {first rest : List Char}
    (h : ∀ skipped c after, first = skipped ++ c :: after → spot (c :: (after ++ rest)) = none) :
    scan spot 0 (first ++ rest) = scan spot 0 rest := by
  induction first with
  | nil => rfl
  | cons c first ih =>
    rw [List.cons_append, scan_of_none (h [] c first rfl)]
    exact ih (fun skipped d after hfirst => h (c :: skipped) d after (by rw [hfirst]; rfl))

/-- Where nothing reaches from the first part of a text into the second one, both are scanned on
their own. -/
theorem scan_append {first second : List Char}
    (h : ∀ skipped c after, first = skipped ++ c :: after →
      spot (c :: (after ++ second)) = spot (c :: after) ∧
        ∀ name length, spot (c :: after) = some (name, length) → length ≤ (c :: after).length) :
    scan spot 0 (first ++ second) = scan spot 0 first ++ scan spot 0 second := by
  -- The claim has to cover scans that start with characters to be passed over, as long as these lie
  -- in the first part.
  have hall : ∀ n, n ≤ first.length →
      scan spot n (first ++ second) = scan spot n first ++ scan spot 0 second := by
    induction first with
    | nil =>
      intro n hn
      have hzero : n = 0 := by simpa using hn
      subst hzero
      rfl
    | cons c first ih =>
      have hrest :=
        ih (fun skipped d after hfirst => h (c :: skipped) d after (by rw [hfirst]; rfl))
      intro n hn
      cases n with
      | succ n => exact hrest n (by simpa using hn)
      | zero =>
        rcases h [] c first rfl with ⟨hspot, hlength⟩
        rw [List.cons_append]
        cases hfound : spot (c :: first) with
        | none =>
          rw [scan_of_none (hspot.trans hfound), scan_of_none hfound]
          exact hrest 0 (Nat.zero_le _)
        | some found =>
          have hle := hlength found.1 found.2 hfound
          simp only [List.length_cons] at hle
          simp only [scan, hspot, hfound, List.cons_append]
          rw [hrest (found.2 - 1) (by omega)]
  exact hall 0 (Nat.zero_le _)

namespace Pattern

/-! ## Searching -/

/-- A function tells what a pattern finds: at the place of a match the scan finds the group of the
match and goes on behind it, and at other places nothing stands. -/
structure Spots (p : Pattern) (spot : Spot) : Prop where
  found : ∀ {bound : Nat} {before after : List Char} {e : Cursor}, 2 ≤ bound →
    run bound false p .found ⟨before.reverse, after, before.length, []⟩ = .found e →
    ∃ piece, piece ≠ [] ∧ after = piece ++ e.after ∧ e.before = (before ++ piece).reverse ∧
      e.pos = (before ++ piece).length ∧ scan spot 0 after = e.group 1 :: scan spot 0 e.after
  lost : ∀ {bound : Nat} {before after : List Char} {left : Marks}, 2 ≤ bound →
    run bound false p .found ⟨before.reverse, after, before.length, []⟩ = .lost left →
    spot after = none

section

variable {p : Pattern} (h : p.Spots spot) {bound : Nat} (hbound : 2 ≤ bound)
include h hbound

/-- The leftmost match is the first thing that the scan finds. -/
theorem Spots.findFrom (before after : List Char) :
    (findFrom bound p before.reverse before.length after = none ∧ scan spot 0 after = []) ∨
      ∃ f skipped piece, findFrom bound p before.reverse before.length after = some f ∧
        piece ≠ [] ∧ after = skipped ++ (piece ++ f.stop.after) ∧
        f.start = (before ++ skipped).length ∧
        f.stop.before = (before ++ skipped ++ piece).reverse ∧
        f.stop.pos = (before ++ skipped ++ piece).length ∧
        scan spot 0 after = f.stop.group 1 :: scan spot 0 f.stop.after := by
  induction after generalizing before with
  | nil =>
    cases hrun : run bound false p .found ⟨before.reverse, [], before.length, []⟩ with
    | lost left => exact Or.inl ⟨by simp [Pattern.findFrom, hrun, Outcome.found?], rfl⟩
    | found e =>
      rcases h.found hbound hrun with ⟨piece, hne, hafter, -⟩
      exact absurd (List.append_eq_nil_iff.1 hafter.symm).1 hne
  | cons c rest ih =>
    cases hrun : run bound false p .found ⟨before.reverse, c :: rest, before.length, []⟩ with
    | found e =>
      rcases h.found hbound hrun with ⟨piece, hne, hafter, hbefore, hpos, hscan⟩
      refine Or.inr ⟨⟨before.length, e⟩, [], piece, by simp [Pattern.findFrom, hrun],
        hne, hafter, ?_⟩
      rw [List.append_nil]
      exact ⟨rfl, hbefore, hpos, hscan⟩
    | lost left =>
      -- Nothing stands here, so the search and the scan both go on with the next character.
      have hnone := h.lost hbound hrun
      have hnext : Pattern.findFrom bound p before.reverse before.length (c :: rest) =
          Pattern.findFrom bound p (before ++ [c]).reverse (before ++ [c]).length rest := by
        simp [Pattern.findFrom, hrun]
      rw [hnext, scan_of_none hnone]
      rcases ih (before ++ [c]) with hnot | ⟨f, skipped, piece, hf, hne, hafter, hrest⟩
      · exact Or.inl hnot
      · refine Or.inr ⟨f, c :: skipped, piece, hf, hne, by rw [hafter]; rfl, ?_⟩
        simpa using hrest

theorem Spots.findAllFrom {count : Nat} (before after : List Char) (hcount : after.length < count) :
    (findAllFrom bound p count before.reverse before.length after).map (fun f => f.stop.group 1) =
      scan spot 0 after := by
  induction count generalizing before after with
  | zero => omega
  | succ count ih =>
    rcases h.findFrom hbound before after with ⟨hnone, hscan⟩ |
      ⟨f, skipped, piece, hf, hne, hafter, hstart, hbefore, hpos, hscan⟩
    · rw [Pattern.findAllFrom, hnone, hscan]
      rfl
    · have hlength := congrArg List.length hafter
      have hpiece : 0 < piece.length := List.length_pos_iff.2 hne
      simp only [List.length_append] at hlength
      -- A match is not empty, so the search goes on where it ends.
      have hmoved : (f.stop.pos == f.start) = false := by
        rw [hpos, hstart]
        simp
        omega
      rw [Pattern.findAllFrom, hf]
      dsimp only
      rw [hmoved, hbefore, hpos, List.map_cons, hscan]
      congr 1
      exact ih (before ++ skipped ++ piece) f.stop.after (by omega)

end

/-- The first captures of a pattern are what a scan for it names. -/
theorem captures1_eq_scan {p : Pattern} (h : p.Spots spot) (text : List Char) :
    p.captures1 text = scan spot 0 text :=
  h.findAllFrom (by simp [roundBound]) [] text (Nat.lt_succ_self _)

/-- The first capture of a pattern is the first name of a scan. -/
theorem firstCapture?_eq_scan {p : Pattern} (h : p.Spots spot) (text : List Char) :
    p.firstCapture? text = (scan spot 0 text).head? := by
  have hfind : p.find? text =
      Pattern.findFrom (roundBound text) p ([] : List Char).reverse ([] : List Char).length text :=
        rfl
  rw [firstCapture?, hfind]
  have hbound : 2 ≤ roundBound text := by simp [roundBound]
  rcases h.findFrom hbound [] text with ⟨hnone, hscan⟩ | ⟨f, _, _, hf, -, -, -, -, -, hscan⟩
  · rw [hnone, hscan]
    rfl
  · rw [hf, hscan]
    rfl

/-! ## Patterns of one name -/

/-- A function that tells the pieces that a searchable pattern matches, up to where its runs stop,
tells what the pattern finds. -/
theorem Spots.of_matches {p : Pattern} {top : Nat} (hp : p.straight? 0 = some top)
    (hs : p.isSearchable = true) {stop : List Char → Prop}
    (hstop : ∀ {bound : Nat} {c e : Cursor}, c.marks = [] →
      run bound false p .found c = .found e → stop e.after)
    (hgroups : ∀ {piece groups}, p.Matches piece groups → piece ≠ [] ∧ ∃ name, groups = [(1, name)])
    (hspot : ∀ {after name n}, spot after = some (name, n) ↔ ∃ piece rest,
      after = piece ++ rest ∧ stop rest ∧ p.Matches piece [(1, name.toList)] ∧ n = piece.length) :
    p.Spots spot where
  found {bound before after e} _ hrun := by
    rcases fits_of_run hp bound hrun with ⟨piece, rest, hafter, hfits⟩
    rcases hfits.groups with ⟨groups, hmatch, hcaptured⟩
    rcases hgroups hmatch with ⟨hne, name, rfl⟩
    have hrest : e.after = rest := hfits.after_eq
    subst hrest
    have hname : e.group 1 = String.ofList name := by
      simp [Cursor.group, hcaptured (1, name) (by simp)]
    refine ⟨piece, hne, hafter, hfits.before_eq, hfits.pos_eq, ?_⟩
    rw [hafter, hname]
    refine scan_of_some hne (hspot.2 ⟨piece, e.after, rfl, hstop rfl hrun, ?_, rfl⟩)
    rwa [String.toList_ofList]
  lost {bound before after left} _ hrun := by
    -- A searchable pattern is lost only where no piece matches.
    refine Option.eq_none_iff_forall_not_mem.2 (fun found hfound => ?_)
    rcases hspot.1 (show spot after = some (found.1, found.2) from hfound) with
      ⟨piece, rest, hafter, -, hmatch, -⟩
    rcases run_searchable_lost hp hs (Nat.le_refl _) (steady_found _ top) hrun hafter hmatch with
      ⟨d, left', -, -, -, h⟩
    cases h

/-- An optional sequence is read if what follows can be read after it, and is left out otherwise. -/
theorem run_optional {bound : Nat} (hbound : 2 ≤ bound) (inside : Bool) (first second : Pattern)
    (k : Continuation) (c : Cursor) :
    run bound inside (.optional (first ++ second)) k c =
      (run bound true (first ++ second) k c).found?.elim (k c) .found := by
  obtain ⟨b, rfl⟩ := Nat.exists_eq_add_of_le' hbound
  have hinner : ∀ last, loop (fun k' d => run (b + 2) true (first ++ second) k' d) false inside k
      (b + 1) 0 (some 0) last = k := by
    intro last
    funext d
    simp [loop]
  have houter : run (b + 2) inside (.optional (first ++ second)) k c =
      loop (fun k' d => run (b + 2) true (first ++ second) k' d) false inside k (0 + (b + 2)) 0
        (some 1) none c := rfl
  rw [houter, Nat.zero_add, loop]
  simp only [Option.map_some, Nat.sub_self, hinner]
  cases run (b + 2) true (first ++ second) k c <;> rfl

/-- A pattern that fails without marks leaves marks behind that can be taken back. -/
theorem calm_run {p : Pattern} {n top : Nat} (hp : p.straight? n = some top) (bound : Nat) :
    Calm (fun d => run bound false p .found d) [] := by
  intro d left hd hlost
  have hrun := run_straight hp bound false (c := d) (by rw [hd]; exact Nat.zero_le _)
    (steady_found _ top)
  rw [show run bound false p .found d = .lost left from hlost] at hrun
  exact hd ▸ hrun

/-- An optional sequence in which nothing stands does not change what is found behind it. -/
theorem Spots.after_optional {first second p : Pattern} {top : Nat}
    (hplain : (first ++ second).isPlain = true) (hp : p.straight? 0 = some top) (h : p.Spots spot)
    (hskip : ∀ text, (first ++ second).Reads text →
      ∀ rest, scan spot 0 (text ++ rest) = scan spot 0 rest) :
    Spots (.optional (first ++ second) ++ p) spot := by
  refine ⟨fun {bound before after e} hbound hrun => ?_,
    fun {bound before after left} hbound hrun => ?_⟩
  · have hseq := (run_optional hbound false first second (fun d => run bound false p .found d)
      ⟨before.reverse, after, before.length, []⟩).symm.trans hrun
    cases hread : run bound true (first ++ second) (fun d => run bound false p .found d)
        ⟨before.reverse, after, before.length, []⟩ with
    | lost left =>
      rw [hread] at hseq
      exact h.found hbound hseq
    | found e' =>
      -- The sequence was read first: the match starts before the place where the scan finds it.
      rw [hread] at hseq
      cases hseq
      have hanswer := run_plain hplain bound true (c := ⟨before.reverse, after, before.length, []⟩)
        (calm_run hp bound)
      rw [hread] at hanswer
      rcases hanswer with ⟨text, rest, hafter, hreads, hrest⟩
      have hmoved : (Cursor.mk before.reverse after before.length []).forward text rest =
          ⟨(before ++ text).reverse, rest, (before ++ text).length, []⟩ := by
        simp [Cursor.forward]
      rw [hmoved] at hrest
      rcases h.found hbound hrest with ⟨piece, hne, hpiece, hbefore, hpos, hscan⟩
      have hafter' : after = text ++ rest := hafter
      refine ⟨text ++ piece, by simp [hne], ?_, ?_, ?_, ?_⟩
      · rw [hafter', List.append_assoc, ← hpiece]
      · rw [hbefore, List.append_assoc]
      · rw [hpos, List.append_assoc]
      · rw [hafter', hskip text hreads, hscan]
  · have hseq := (run_optional hbound false first second (fun d => run bound false p .found d)
      ⟨before.reverse, after, before.length, []⟩).symm.trans hrun
    cases hread : run bound true (first ++ second) (fun d => run bound false p .found d)
        ⟨before.reverse, after, before.length, []⟩ with
    | found e' =>
      rw [hread] at hseq
      cases hseq
    | lost left' =>
      rw [hread] at hseq
      exact h.lost hbound hseq

/-! ## Greedy runs -/

/-- A greedy run takes as much as it can where that will do. -/
theorem greedyRun_longest {k : Continuation} {accepts : Char → Bool} {inside : Bool} {marks : Marks}
    {before after : List Char} {pos : Nat} {e : Cursor}
    (hk : k ((Cursor.mk before after pos marks).forward (after.takeWhile accepts)
      (after.dropWhile accepts)) = .found e) :
    greedyRun accepts inside k marks 0 none before pos after = .found e := by
  induction after generalizing before pos with
  | nil => simpa [greedyRun, Cursor.forward] using hk
  | cons c rest ih =>
    rw [greedyRun]
    by_cases hc : accepts c = true
    · have hsame : (Cursor.mk before (c :: rest) pos marks).forward (c :: rest.takeWhile accepts)
          (rest.dropWhile accepts) = (Cursor.mk (c :: before) rest (pos + 1) marks).forward
            (rest.takeWhile accepts) (rest.dropWhile accepts) := by
        simp [Cursor.forward, Nat.add_assoc, Nat.add_comm 1]
      rw [List.takeWhile_cons_of_pos hc, List.dropWhile_cons_of_pos hc, hsame] at hk
      have hrest := ih hk
      simp [hc, hrest]
    · simpa [hc, Cursor.forward] using hk

theorem after_closeGroup (c : Cursor) (index : Nat) : (c.closeGroup index).after = c.after := by
  unfold Cursor.closeGroup
  split <;> rfl

/-- The name at the end of a pattern goes on as long as it can. -/
theorem run_name_stops {first more : Char → Bool} {bound index : Nat} {c e : Cursor}
    (h : run bound false (.group index (.one first ++ .many more)) .found c = .found e) :
    ∀ x, e.after.head? = some x → more x = false := by
  have hrun : run bound false (.one first) (fun d => run bound false (.many more)
      (fun d' => .found (d'.closeGroup index)) d) (c.openGroup index) = .found e := h
  have hmany : ∀ d : Cursor,
      run bound false (.many more) (fun d' => .found (d'.closeGroup index)) d =
      .found ((d.forward (d.after.takeWhile more) (d.after.dropWhile more)).closeGroup index) :=
    fun d => greedyRun_longest rfl
  simp only [hmany] at hrun
  cases hafter : (c.openGroup index).after with
  | nil => simp [run, hafter] at hrun
  | cons x rest =>
    by_cases hx : first x = true
    · simp only [run, hafter, hx, if_true] at hrun
      cases hrun
      rw [after_closeGroup]
      intro y hy
      have hdrop := List.head?_dropWhile_not more rest
      have hy' : (rest.dropWhile more).head? = some y := hy
      simpa [hy'] using hdrop
    · simp [run, hafter, hx] at hrun

/-- The same after any plain beginning. -/
theorem run_append_name_stops {p : Pattern} (hp : p.isPlain = true) {first more : Char → Bool}
    {bound index : Nat} (hindex : 0 < index) {c e : Cursor} (hmarks : c.marks = [])
    (h : run bound false (p ++ .group index (.one first ++ .many more)) .found c = .found e) :
    ∀ x, e.after.head? = some x → more x = false := by
  have hname : (Pattern.group index (.one first ++ .many more)).straight? 0 = some index := by
    simp only [straight?, hindex, decide_true, Bool.true_and]
    rfl
  have hanswer := run_plain hp bound false (hmarks ▸ calm_run hname bound)
  have hrun : run bound false p (fun d => run bound false
      (.group index (.one first ++ .many more)) .found d) c = .found e := h
  rw [hrun] at hanswer
  rcases hanswer with ⟨_, _, -, -, hfound⟩
  exact run_name_stops hfound

end Pattern

end JavaDeps
