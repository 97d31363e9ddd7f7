import JavaDeps.Proofs.Pattern.Layout
import JavaDeps.Proofs.Pattern.Scan
import Mathlib.Data.List.Forall2

/-!
# Patterns one after the other

The parts that a written pattern is read as mean patterns, and so the whole means these patterns one
after the other. In such a chain every division into a beginning and a rest is as good as any other.
-/

namespace JavaDeps.Pattern

/-! ## Chains -/

def chain : List Pattern → Pattern
  | [] => .empty
  | [p] => p
  | p :: rest => .seq p (chain rest)

/-- A chain runs its first parts, and then the others from where they stop. -/
theorem run_chain_append (bound : Nat) (inside : Bool) (ps qs : List Pattern) (k : Continuation)
    (c : Cursor) : run bound inside (chain (ps ++ qs)) k c =
      run bound inside (chain ps) (fun d => run bound inside (chain qs) k d) c := by
  induction ps generalizing c with
  | nil => rfl
  | cons p rest ih =>
    -- A last pattern has no sequence of its own, so it is looked at by itself.
    cases rest with
    | nil => cases qs <;> rfl
    | cons q rest' => exact congrArg (fun k' => run bound inside p k' c) (funext ih)

/-- A chain reads a text in two pieces, one for either part of it. -/
theorem reads_chain_append {ps qs : List Pattern} {text : List Char} :
    (chain (ps ++ qs)).Reads text ↔
      ∃ first second, text = first ++ second ∧ (chain ps).Reads first ∧
        (chain qs).Reads second := by
  induction ps generalizing text with
  | nil =>
    refine ⟨fun h => ⟨[], text, rfl, rfl, h⟩, ?_⟩
    rintro ⟨_, second, rfl, rfl, h⟩
    exact h
  | cons p rest ih =>
    cases rest with
    | nil =>
      cases qs with
      | nil => simp [chain, Reads]
      | cons q qs' => exact Iff.rfl
    | cons q rest' =>
      constructor
      · rintro ⟨first, second, rfl, hfirst, hsecond⟩
        rcases ih.1 hsecond with ⟨middle, last, rfl, hmiddle, hlast⟩
        exact ⟨first ++ middle, last, by simp, ⟨first, middle, rfl, hfirst, hmiddle⟩, hlast⟩
      · rintro ⟨_, last, rfl, ⟨first, middle, rfl, hfirst, hmiddle⟩, hlast⟩
        exact ⟨first, middle ++ last, by simp, hfirst, ih.2 ⟨middle, last, rfl, hmiddle, hlast⟩⟩

theorem reads_chain_cons {p : Pattern} {ps : List Pattern} {text : List Char} :
    (chain (p :: ps)).Reads text ↔
      ∃ first second, text = first ++ second ∧ p.Reads first ∧ (chain ps).Reads second := by
  change (chain ([p] ++ ps)).Reads text ↔ _
  exact reads_chain_append

/-- What holds of all patterns of a chain and passes on to sequences holds of the chain. -/
theorem chain_of_all {P : Pattern → Prop} (hempty : P .empty)
    (hseq : ∀ p q, P p → P q → P (.seq p q)) {ps : List Pattern} (h : ∀ p ∈ ps, P p) :
    P (chain ps) := by
  fun_induction chain ps with
  | case1 => exact hempty
  | case2 p => exact h p List.mem_cons_self
  | case3 p rest hne ih =>
    have hrest : P (chain rest) := ih (fun q hq => h q (List.mem_cons_of_mem _ hq))
    exact hseq p (chain rest) (h p List.mem_cons_self) hrest

theorem isPlain_chain {ps : List Pattern} (h : ∀ p ∈ ps, p.isPlain = true) :
    (chain ps).isPlain = true :=
  chain_of_all (P := fun p => p.isPlain = true) rfl
    (fun _ _ hp hq => Bool.and_eq_true_iff.2 ⟨hp, hq⟩) h

theorem isSimple_chain {ps : List Pattern} (h : ∀ p ∈ ps, p.isSimple = true) :
    (chain ps).isSimple = true :=
  chain_of_all (P := fun p => p.isSimple = true) rfl
    (fun _ _ hp hq => Bool.and_eq_true_iff.2 ⟨hp, hq⟩) h

theorem literalChars_eq_chain (chars : List Char) :
    literalChars chars = chain (chars.map char) := by
  fun_induction literalChars chars with
  | case1 => rfl
  | case2 c => rfl
  | case3 c rest hrest ih =>
    cases rest with
    | nil => exact absurd rfl hrest
    | cons d rest' => exact congrArg (Pattern.seq (char c)) ih

/-- A chain of characters reads exactly these characters. -/
theorem reads_chain_chars {chars text : List Char} :
    (chain (chars.map char)).Reads text ↔ text = chars := by
  rw [← literalChars_eq_chain, reads_literalChars]

/-! ## Ways that lead on -/

/-- An optional pattern reads the empty text as well. -/
@[simp] theorem reads_optional {p : Pattern} {text : List Char} :
    (optional p).Reads text ↔ text = [] ∨ p.Reads text := by
  constructor
  · rintro ⟨pieces, rfl, -, hmost, hreads⟩
    -- At most one piece is read.
    have hle := hmost 1 rfl
    rcases pieces with _ | ⟨piece, _ | ⟨next, more⟩⟩
    · exact Or.inl rfl
    · exact Or.inr (by simpa using hreads piece List.mem_cons_self)
    · simp at hle
  · rintro (rfl | h)
    · exact ⟨[], rfl, Nat.le_refl 0, by simp, by simp⟩
    · exact ⟨[text], by simp, Nat.zero_le 1, by simp, by simpa using h⟩

section

variable (bound : Nat) (inside : Bool) {k : Continuation} {c e : Cursor}

/-- A simple pattern finds something where one of its texts leads on. -/
theorem run_simple_found {p : Pattern} (hp : p.isSimple = true) (hk : Calm k c.marks)
    {text rest : List Char} (hafter : c.after = text ++ rest) (hreads : p.Reads text)
    (h : k (c.forward text rest) = .found e) : ∃ e', run bound inside p k c = .found e' := by
  cases hrun : run bound inside p k c with
  | found e' => exact ⟨e', rfl⟩
  | lost left =>
    rcases run_simple_lost hp hk hrun hafter hreads with ⟨left', hlost⟩
    rw [h] at hlost
    cases hlost

/-- A run of characters is read as far as it goes where that leads on. -/
theorem run_many_longest {accepts : Char → Bool} {text rest : List Char}
    (hafter : c.after = text ++ rest) (htext : ∀ x ∈ text, accepts x = true)
    (hrest : ∀ x, rest.head? = some x → accepts x = false)
    (h : k (c.forward text rest) = .found e) : run bound inside (many accepts) k c = .found e := by
  -- The run ends where the rest starts, so it is exactly the text.
  refine greedyRun_longest (k := k) ?_
  have hstop : rest.takeWhile accepts = [] ∧ rest.dropWhile accepts = rest := by
    cases rest with
    | nil => exact ⟨rfl, rfl⟩
    | cons x rest' => simp [hrest x rfl]
  rw [hafter, List.takeWhile_append_of_pos htext, List.dropWhile_append_of_pos htext, hstop.1,
    hstop.2, List.append_nil, ← hafter]
  exact h

variable {bound}

/-- A repetition reads nothing where what it repeats cannot be read. -/
theorem run_rep_skip (hbound : 2 ≤ bound) {first second : Pattern} {left : Marks}
    (h : ∀ k', run bound true (first ++ second) k' c = .lost left) :
    run bound inside (.rep (first ++ second) 0 none .greedy) k c = k c := by
  obtain ⟨b, rfl⟩ := Nat.exists_eq_add_of_le' hbound
  show loop (fun k' d => run (b + 2) true (first ++ second) k' d) false inside k
    (0 + (b + 2)) 0 none
    none c = _
  rw [Nat.zero_add, loop]
  simp [h]

/-- An optional sequence does not keep from going on without it. -/
theorem run_optional_skip (hbound : 2 ≤ bound) (first second : Pattern) (h : k c = .found e) :
    ∃ e', run bound inside (.optional (first ++ second)) k c = .found e' := by
  rw [run_optional hbound, h]
  cases run bound true (first ++ second) k c with
  | found e' => exact ⟨e', rfl⟩
  | lost left => exact ⟨e, rfl⟩

/-- An optional sequence can be read where it leads on. -/
theorem run_optional_take (hbound : 2 ≤ bound) {first second : Pattern}
    (hp : (first ++ second).isSimple = true) (hk : Calm k c.marks) {text rest : List Char}
    (hafter : c.after = text ++ rest) (hreads : (first ++ second).Reads text)
    (h : k (c.forward text rest) = .found e) :
    ∃ e', run bound inside (.optional (first ++ second)) k c = .found e' := by
  rcases run_simple_found bound true hp hk hafter hreads h with ⟨e', he'⟩
  rw [run_optional hbound, he']
  exact ⟨e', rfl⟩

end

/-! ## Meaning -/

abbrev Means (switches : Switches) : List Written → List Pattern → Prop :=
  List.Forall₂ (fun w p => w.meaning switches = .ok p)

def Mark.repetition (p : Pattern) : Mark → Pattern
  | optional => .optional p
  | many => .rep p 0 none .greedy
  | many1 => .rep p 1 none .greedy

namespace Means

variable {switches : Switches} {ws vs : List Written} {ps qs : List Pattern}

/-- A part means its pattern. -/
theorem one {w : Written} {p : Pattern} (h : w.meaning switches = .ok p) : Means switches [w] [p] :=
  .cons h .nil

/-- Parts that are written one after the other mean their patterns in this order. -/
theorem append (h : Means switches ws ps) (h' : Means switches vs qs) :
    Means switches (ws ++ vs) (ps ++ qs) :=
  List.rel_append h h'

/-- A sequence means the chain of what its parts mean. -/
theorem sequence (h : Means switches ws ps) :
    (Written.sequence ws).meaning switches = .ok (chain ps) := by
  induction h with
  | nil => rfl
  | @cons w p ws ps hw hrest ih =>
    cases hrest with
    | nil => exact hw
    | @cons v q vs qs hv hmore =>
      change (Written.seq w (Written.sequence (v :: vs))).meaning switches = _
      rw [Written.meaning, hw, ih]
      rfl

/-- A repeated sequence means the repetition of its chain. -/
theorem marked (h : Means switches ws ps) (mark : Mark) :
    Means switches [mark.repeated (Written.sequence ws)] [mark.repetition (chain ps)] := by
  refine one ?_
  cases mark <;> rw [Mark.repeated, Written.meaning, h.sequence] <;> rfl

/-- A group around a sequence captures its chain. -/
theorem captured (h : Means switches ws ps) (index : Nat) :
    Means switches [.group index (Written.sequence ws)] [.group index (chain ps)] := by
  refine one ?_
  rw [Written.meaning, h.sequence]
  rfl

theorem orElse {w v : Written} {p q : Pattern} (hw : w.meaning switches = .ok p)
    (hv : v.meaning switches = .ok q) : (Written.alt w v).meaning switches = .ok (.alt p q) := by
  rw [Written.meaning, hw, hv]
  rfl

end Means

/-- Pieces that are written without a flaw denote the chain of what their parts mean. -/
theorem parse_layout_eq {switches : Switches} {pieces : List Piece} {text : String}
    {ps : List Pattern} (hmeans : Means switches (layoutParts 0 pieces) ps)
    (htext : text.toList = layout pieces) (hpieces : ∀ piece ∈ pieces, piece.isSound = true)
    (hspaced : switches.contains .spaced = false)
    (halphabet : (switches.contains .ascii && switches.contains .unicode) = false) :
    parse switches text = .ok (chain ps) ∧ (chain ps).straight? 0 = some (captureCount pieces) := by
  rcases parse_layout htext hpieces hspaced halphabet with ⟨p, hp, hparse, hstraight⟩
  rw [hmeans.sequence] at hp
  cases hp
  exact ⟨hparse, hstraight⟩

/-! ## Characters and sets -/

/-- A code that is compared exactly fits its own character. -/
theorem fitsCode_exact (x c : Char) : fitsCode .exact x.toNat c = (c == x) := by
  rw [fitsCode, Text.LetterCase.variants, List.any_cons, List.any_nil, Bool.or_false,
    Bool.eq_iff_iff, beq_iff_eq, beq_iff_eq]
  exact Char.toNat_inj

section

variable {switches : Switches} (hletters : Switch.letters switches = .exact)

include hletters

theorem meaning_char (x : Char) : (Written.code x.toNat).meaning switches = .ok (char x) := by
  simp only [Written.meaning, hletters, fitsCode_exact]
  rfl

theorem means_word (chars : List Char) : Means switches (wordParts chars) (chars.map char) := by
  induction chars with
  | nil => exact .nil
  | cons c rest ih => exact .cons (meaning_char hletters c) ih

/-- A word means its characters. -/
theorem meaning_word (chars : List Char) :
    (Written.sequence (wordParts chars)).meaning switches = .ok (literalChars chars) := by
  rw [(means_word hletters chars).sequence, literalChars_eq_chain]

end

/-- A set means a choice of characters, also where it is read as one character. -/
theorem meaning_setPart (switches : Switches) (negative : Bool) (members : List Member) :
    (setPart negative members).meaning switches = .ok (.one (fun c =>
      setAccepts (Switch.letters switches) (switches.contains .ascii) members c != negative)) := by
  unfold setPart
  split
  · rename_i n
    simp [Written.meaning, setAccepts]
  · rfl

end JavaDeps.Pattern
