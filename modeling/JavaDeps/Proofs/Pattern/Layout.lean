import JavaDeps.Proofs.Pattern.Search
import JavaDeps.Proofs.Pattern.Shape

/-!
# Written patterns with captures

A written pattern of pieces, some of which are captured, denotes a pattern whose groups are numbered
from the left. So it can be searched for, and whenever it is found, its groups have been read.

The file defines:
- `Piece`, the pieces, `layout`, how they are written one after the other, and `layoutParts`, what
  they are read as;
- `Written.straight?`, which numbers the groups of what is read;
- `parse_layout`, by which pieces without a flaw denote the pattern that their parts mean;
- `captured_of_find?`, by which the last group of such a pattern is read.
-/

namespace JavaDeps.Pattern

/-! ## Captures -/

/-- A piece of a pattern: a shape, or a shape that is captured. -/
inductive Piece where
  | plain (s : Shape)
  | capture (s : Shape)

namespace Piece

def shape : Piece → Shape
  | plain s => s
  | capture s => s

def text : Piece → List Char
  | plain s => s.text
  | capture s => '(' :: (s.text ++ [')'])

def captures : Piece → Nat
  | plain _ => 0
  | capture _ => 1

def parts (groups : Nat) : Piece → List Written
  | plain s => s.parts
  | capture s => [.group (groups + 1) (Written.sequence s.parts)]

/-- Whether a piece is written without a flaw and not nested too deep. -/
def isSound (piece : Piece) : Bool := piece.shape.isSound && decide (piece.shape.height < 400)

end Piece

def layout (pieces : List Piece) : List Char := pieces.flatMap Piece.text

def captureCount : List Piece → Nat
  | [] => 0
  | piece :: more => piece.captures + captureCount more

def layoutParts : Nat → List Piece → List Written
  | _, [] => []
  | groups, piece :: more => piece.parts groups ++ layoutParts (groups + piece.captures) more

/-- The parts of two layouts follow each other, with their groups counted on. -/
theorem layoutParts_append (pieces more : List Piece) (groups : Nat) :
    layoutParts groups (pieces ++ more) =
      layoutParts groups pieces ++ layoutParts (groups + captureCount pieces) more := by
  induction pieces generalizing groups with
  | nil => rfl
  | cons piece rest ih =>
    rw [List.cons_append, layoutParts, ih, layoutParts, captureCount, List.append_assoc,
      Nat.add_assoc]

def Written.straight? : Written → Nat → Option Nat
  | .seq p q, n => (p.straight? n).bind q.straight?
  | .group index p, n => if n < index && p.isPlain then some index else none
  | p, n => if p.isPlain then some n else none

def straightAll? (ws : List Written) (n : Nat) : Option Nat :=
  ws.foldlM (fun n w => w.straight? n) n

/-- A plain part has no groups. -/
theorem Written.straight_plain {w : Written} (hw : w.isPlain = true) (n : Nat) :
    w.straight? n = some n := by
  induction w generalizing n with
  | seq p q ihp ihq =>
    rw [Written.isPlain, Bool.and_eq_true] at hw
    rw [Written.straight?, ihp hw.1, Option.bind_some, ihq hw.2]
  | group index p ih => cases hw
  | _ => rw [Written.straight?, if_pos hw] <;> simp

theorem straightAll?_plain {ws : List Written} (h : ∀ w ∈ ws, w.isPlain = true) (n : Nat) :
    straightAll? ws n = some n := by
  induction ws with
  | nil => rfl
  | cons w more ih =>
    have hw := Written.straight_plain (h w List.mem_cons_self) n
    have hmore := ih (fun w' hw' => h w' (List.mem_cons_of_mem _ hw'))
    rw [straightAll?, List.foldlM_cons, hw]
    exact hmore

/-- Groups of parts one after the other are counted on. -/
theorem straightAll?_append (ws vs : List Written) (n : Nat) :
    straightAll? (ws ++ vs) n = (straightAll? ws n).bind (straightAll? vs) :=
  List.foldlM_append

theorem straight_sequence (ws : List Written) (n : Nat) :
    (Written.sequence ws).straight? n = straightAll? ws n := by
  fun_induction Written.sequence ws generalizing n with
  | case1 => rfl
  | case2 p => simp [straightAll?]
  | case3 p rest hne ih =>
    rw [Written.straight?, straightAll?, List.foldlM_cons]
    exact congrArg (Option.bind (p.straight? n)) (funext ih)

/-- The groups of a layout are numbered in order. -/
theorem straightAll?_layoutParts (pieces : List Piece) (groups : Nat) :
    straightAll? (layoutParts groups pieces) groups = some (groups + captureCount pieces) := by
  induction pieces generalizing groups with
  | nil => rfl
  | cons piece more ih =>
    have hpiece : straightAll? (piece.parts groups) groups = some (groups + piece.captures) := by
      cases piece with
      | plain s => exact straightAll?_plain (isPlain_parts s) groups
      | capture s =>
        have hbody := isPlain_sequence (isPlain_parts s)
        simp [straightAll?, Piece.parts, Written.straight?, hbody, Piece.captures]
    rw [layoutParts, straightAll?_append, hpiece, Option.bind_some, ih, captureCount, Nat.add_assoc]

section

variable {switches : Switches} {groups : Nat} {rest : List Char} {r : Reader}

/-- What can follow a mark can follow it behind a sound layout. -/
theorem endsMark_layout {pieces : List Piece} (hpieces : ∀ piece ∈ pieces, piece.isSound = true)
    (hrest : rest ≠ ['\\']) (hmark : EndsMark rest) :
    layout pieces ++ rest ≠ ['\\'] ∧ EndsMark (layout pieces ++ rest) := by
  induction pieces with
  | nil => exact ⟨hrest, hmark⟩
  | cons piece more ih =>
    have hmore := ih (fun piece' hpiece' => hpieces piece' (List.mem_cons_of_mem _ hpiece'))
    have hpiece := hpieces piece List.mem_cons_self
    rw [Piece.isSound, Bool.and_eq_true] at hpiece
    rw [layout, List.flatMap_cons, List.append_assoc]
    cases piece with
    | plain s => exact endsMark_shape hpiece.1 hmore.1 hmore.2
    | capture s =>
      refine ⟨by simp [Piece.text], ?_⟩
      rw [EndsMark, Piece.text, List.cons_append, tokenAt_plain (by decide)]
      decide

/-- A captured shape is read as the next group. -/
theorem readGroup_capture {s : Shape} (hs : s.isSound = true) (bound depth : Nat)
    (hheight : depth + 2 + 2 * s.height ≤ depthBound) (hbound : 2 * s.text.length + 2 < bound)
    (first : Bool) (hrest : rest ≠ ['\\']) (h : r.On switches groups (s.text ++ ')' :: rest)) :
    ∃ r', r'.On switches (groups + 1) rest ∧ readGroup bound depth false first r =
      .ok (some (.one (.group (groups + 1) (Written.sequence s.parts))), r') := by
  rcases Nat.exists_eq_succ_of_ne_zero (Nat.ne_of_gt (Nat.zero_lt_of_lt hbound)) with ⟨b, rfl⟩
  have hends := endsMark_others [] rest
  have hmiss := accept_miss h (endsMark_shape hs hends.1 hends.2).2.1
  have hopen : openGroup none r = .ok (groups + 1, { r with widths := r.widths ++ [none] }) := by
    rw [← h.groups_eq]
    rfl
  -- The group has its number before its body is read, so inner groups come after it.
  have h₁ : Reader.On switches (groups + 1) (s.text ++ (othersText [] ++ ')' :: rest))
      { r with widths := r.widths ++ [none] } :=
    ⟨h.rest_eq, h.switches_eq, by simp [h.groups_eq], h.asked_eq⟩
  have hlength : 2 * (s.text.length + (othersText []).length) + 1 < b := by
    rw [show (othersText []).length = 0 from rfl]
    omega
  rcases (readable_of_isSound hs).alternatives rfl b (depth + 1) (Nat.succ_ne_zero depth)
    (by omega) hlength h₁ with ⟨r₂, h₂, hread⟩
  rcases readClose_eq (r.place - 1) hrest h₂ with ⟨r₃, hclose, h₃⟩
  have hpure : (pure (.capturing none) : Read GroupKind) r = .ok (.capturing none, r) := rfl
  have hhere : here r = .ok (r.place, r) := rfl
  refine ⟨{ r₃ with widths := r₃.widths.set groups (some (Written.sequence s.parts).width) },
    ⟨h₃.rest_eq, h₃.switches_eq, by simpa using h₃.groups_eq, h₃.asked_eq⟩, ?_⟩
  rw [readGroup, read_bind hhere, read_bind hmiss, if_neg (by decide), read_bind hpure]
  show (openGroup none >>= _) r = _
  rw [read_bind hopen, read_bind hread, read_bind hclose]
  rfl

/-- A sound piece is read to its end. -/
theorem readSequence_piece {piece : Piece} (hpiece : piece.isSound = true) (bound n : Nat)
    (first : Bool) (before : List Part) (hbound : 2 * piece.text.length + n ≤ bound)
    (hrest : rest ≠ ['\\']) (hmark : EndsMark rest)
    (h : r.On switches groups (piece.text ++ rest)) :
    ∃ bound' read r', n ≤ bound' ∧ read.reverse.flatMap Part.parts = piece.parts groups ∧
      r'.On switches (groups + piece.captures) rest ∧
      readSequence bound 1 false first before r =
        readSequence bound' 1 false first (read ++ before) r' := by
  rw [Piece.isSound, Bool.and_eq_true, decide_eq_true_eq] at hpiece
  -- Two levels for each group that is nested stay below the bound.
  have hdepth : depthBound = 980 := rfl
  cases piece with
  | plain s =>
    have hheight : s.height < 400 := hpiece.2
    rcases readable_of_isSound hpiece.1 bound n 1 first before hbound (by omega) h hrest
      (Or.inr hmark) with ⟨bound', read, r', hbound', hparts, -, hr', hread⟩
    exact ⟨bound', read, r', hbound', hparts, hr', hread⟩
  | capture s =>
    have hheight : s.height < 400 := hpiece.2
    have hs : s.isSound = true := hpiece.1
    simp only [Piece.text, List.length_cons, List.length_append, List.length_nil] at hbound
    have htext : (Piece.capture s).text ++ rest = '(' :: (s.text ++ ')' :: rest) := by
      simp [Piece.text]
    rw [htext] at h
    have hends := endsMark_others [] rest
    rcases Nat.exists_eq_succ_of_ne_zero (show bound ≠ 0 by omega) with ⟨b, rfl⟩
    rcases readSequence_plain b 1 first before h (by decide) (endsMark_shape hs hends.1 hends.2).1
      with ⟨r₁, h₁, -, hgroup⟩
    rcases readGroup_capture hs b 1 (by omega) (by omega) (first && before.isEmpty) hrest h₁
      with ⟨r', hr', hread⟩
    exact ⟨b, [.one _], r', by omega, rfl, hr', hgroup rfl _ _ hread⟩

/-- Sound pieces are read one after the other. -/
theorem readSequence_layout {pieces : List Piece} (hpieces : ∀ piece ∈ pieces, piece.isSound = true)
    (bound n : Nat) (first : Bool) (before : List Part)
    (hbound : 2 * (layout pieces).length + n ≤ bound) (hrest : rest ≠ ['\\'])
    (hmark : EndsMark rest) (h : r.On switches groups (layout pieces ++ rest)) :
    ∃ bound' read r', n ≤ bound' ∧ read.reverse.flatMap Part.parts = layoutParts groups pieces ∧
      r'.On switches (groups + captureCount pieces) rest ∧
      readSequence bound 1 false first before r =
        readSequence bound' 1 false first (read ++ before) r' := by
  -- The parts are gathered in reverse, in front of those that were read before.
  induction pieces generalizing groups bound before r with
  | nil => exact ⟨bound, [], r, by simpa [layout] using hbound, rfl, h, rfl⟩
  | cons piece more ih =>
    have hmore : ∀ piece' ∈ more, piece'.isSound = true :=
      fun piece' hpiece' => hpieces piece' (List.mem_cons_of_mem _ hpiece')
    have hlayout : layout (piece :: more) = piece.text ++ layout more := rfl
    have hcount : captureCount (piece :: more) = piece.captures + captureCount more := rfl
    rw [hlayout, List.length_append] at hbound
    rw [hlayout, List.append_assoc] at h
    have hnext := endsMark_layout hmore hrest hmark
    rcases readSequence_piece (hpieces piece List.mem_cons_self) bound
      (2 * (layout more).length + n) first before (by omega) hnext.1 hnext.2 h
      with ⟨bound₁, read₁, r₁, hbound₁, hparts₁, h₁, hread₁⟩
    rcases ih hmore bound₁ (read₁ ++ before) hbound₁ h₁
      with ⟨bound', read₂, r', hbound', hparts₂, hr', hread₂⟩
    rw [hcount, ← Nat.add_assoc]
    refine ⟨bound', read₂ ++ read₁, r', hbound', ?_, hr', ?_⟩
    · rw [List.reverse_append, List.flatMap_append, hparts₁, hparts₂]
      rfl
    · rw [List.append_assoc]
      exact hread₁.trans hread₂

theorem endsMark_nil : ([] : List Char) ≠ ['\\'] ∧ EndsMark [] :=
  ⟨by decide, by decide, by decide⟩

/-- A layout is read as one alternative. -/
theorem readAlternatives_layout {pieces : List Piece}
    (hpieces : ∀ piece ∈ pieces, piece.isSound = true) (bound : Nat)
    (hbound : 2 * (layout pieces).length + 1 < bound) (h : r.On switches groups (layout pieces)) :
    ∃ r', r'.On switches (groups + captureCount pieces) [] ∧
      readAlternatives bound 0 false r = .ok (layoutParts groups pieces, r') := by
  rcases Nat.exists_eq_succ_of_ne_zero (Nat.ne_of_gt (Nat.zero_lt_of_lt hbound)) with ⟨b, rfl⟩
  rw [← List.append_nil (layout pieces)] at h
  rcases readSequence_layout hpieces b 1 true [] (by omega) endsMark_nil.1 endsMark_nil.2 h
    with ⟨bound', read, r', hbound', hparts, hr', hread⟩
  rcases Nat.exists_eq_succ_of_ne_zero (Nat.ne_of_gt hbound') with ⟨b', rfl⟩
  rw [List.append_nil, readSequence_stop _ _ _ _ hr' (Or.inl rfl), hparts] at hread
  have hothers : readOthers b 0 false r' = .ok ([], r') := by
    rcases Nat.exists_eq_succ_of_ne_zero (show b ≠ 0 by omega) with ⟨b'', rfl⟩
    rw [readOthers, read_bind (accept_miss hr' (by decide))]
    rfl
  refine ⟨r', hr', ?_⟩
  rw [readAlternatives, if_neg (by decide)]
  show (readSequence b 1 false true [] >>= _) r = _
  rw [read_bind hread, read_bind hothers]
  rfl

/-- The whole text of a layout is read to its end. -/
theorem readWhole_layout {pieces : List Piece} (hpieces : ∀ piece ∈ pieces, piece.isSound = true)
    (hspaced : switches.contains .spaced = false)
    (halphabet : (switches.contains .ascii && switches.contains .unicode) = false)
    (htext : r.text = layout pieces) (h : r.On switches groups (layout pieces)) :
    ∃ r', r'.On switches (groups + captureCount pieces) [] ∧
      readWhole r = .ok (Written.sequence (layoutParts groups pieces), r') := by
  have hend := (endsMark_layout hpieces endsMark_nil.1 endsMark_nil.2).1
  rw [List.append_nil] at hend
  rcases readAlternatives_layout hpieces (4 * r.text.length + 8) (by rw [htext]; omega) h
    with ⟨r', hr', hread⟩
  have hget : ∀ r, (get : Read Reader) r = .ok (r, r) := fun _ => rfl
  have hcheck : (liftM (checkEnd r) : Read Reader) r = .ok (r, r) := by
    simp [checkEnd, h.rest_eq, hend]
    rfl
  have hset : (set r : Read PUnit) r = .ok (⟨⟩, r) := rfl
  refine ⟨r', hr', ?_⟩
  rw [readWhole, read_bind (hget r), read_bind hcheck, read_bind hset, read_bind (hget r)]
  rw [h.switches_eq, hspaced, read_bind hread, read_bind (hget r')]
  simp only [hr'.switches_eq, halphabet, hr'.rest_eq, hr'.asked_eq]
  rfl

/-- Pieces one after the other are read as the sequence of their parts. -/
theorem read_layout {pieces : List Piece} (hpieces : ∀ piece ∈ pieces, piece.isSound = true)
    (hspaced : switches.contains .spaced = false)
    (halphabet : (switches.contains .ascii && switches.contains .unicode) = false) :
    Written.read switches (layout pieces) =
      .ok (Written.sequence (layoutParts 0 pieces), switches) := by
  have hstart : Reader.On switches 0 (layout pieces)
      { text := layout pieces, rest := layout pieces, switches := switches } :=
    ⟨rfl, rfl, rfl, rfl⟩
  rcases readWhole_layout hpieces hspaced halphabet rfl hstart with ⟨r', hr', hread⟩
  unfold Written.read
  show (readWhole _ >>= _) = _
  rw [hread, ← hr'.switches_eq]
  rfl

end

/-! ## Meaning -/

/-- What is written plainly has a plain meaning. -/
theorem meaning_plain (switches : Switches) {w : Written} (hw : w.isPlain = true) :
    ∃ p, w.meaning switches = .ok p ∧ p.isPlain = true := by
  induction w with
  | empty => exact ⟨_, rfl, rfl⟩
  | code n => exact ⟨_, rfl, rfl⟩
  | any => exact ⟨_, rfl, rfl⟩
  | set negative members => exact ⟨_, rfl, rfl⟩
  | seq p q ihp ihq =>
    rw [Written.isPlain, Bool.and_eq_true] at hw
    rcases ihp hw.1 with ⟨p', hp, hp'⟩
    rcases ihq hw.2 with ⟨q', hq, hq'⟩
    exact ⟨.seq p' q', by rw [Written.meaning, hp, hq]; rfl, by simp [isPlain, hp', hq']⟩
  | alt p q ihp ihq =>
    rw [Written.isPlain, Bool.and_eq_true] at hw
    rcases ihp hw.1 with ⟨p', hp, hp'⟩
    rcases ihq hw.2 with ⟨q', hq, hq'⟩
    exact ⟨.alt p' q', by rw [Written.meaning, hp, hq]; rfl, by simp [isPlain, hp', hq']⟩
  | rep p least most greed ih =>
    rw [Written.isPlain, Bool.and_eq_true] at hw
    rcases ih hw.1 with ⟨p', hp, hp'⟩
    exact ⟨.rep p' least most greed, by rw [Written.meaning, hp]; rfl,
      by rw [isPlain, hp', hw.2]; rfl⟩
  | _ => cases hw

theorem straight_of_isPlain {p : Pattern} (hp : p.isPlain = true) (n : Nat) :
    p.straight? n = some n := by
  induction p generalizing n with
  | seq p q ihp ihq =>
    rw [isPlain, Bool.and_eq_true] at hp
    rw [straight?, ihp hp.1, Option.bind_some, ihq hp.2]
  | group index p ih => cases hp
  | _ => rw [straight?, if_pos hp] <;> simp

theorem meaning_part (switches : Switches) {w : Written} {n top : Nat}
    (hw : (if w.isPlain then some n else none) = some top) :
    ∃ p, w.meaning switches = .ok p ∧ p.straight? n = some top := by
  split at hw
  · rename_i hplain
    rcases meaning_plain switches hplain with ⟨p, hp, hp'⟩
    exact ⟨p, hp, by rw [straight_of_isPlain hp', hw]⟩
  · cases hw

/-- What is written with groups in order has a meaning with the same groups. -/
theorem meaning_straight (switches : Switches) {w : Written} {n top : Nat}
    (hw : w.straight? n = some top) :
    ∃ p, w.meaning switches = .ok p ∧ p.straight? n = some top := by
  induction w generalizing n top with
  | seq p q ihp ihq =>
    rcases Option.bind_eq_some_iff.1 hw with ⟨middle, hpm, hqm⟩
    rcases ihp hpm with ⟨p', hp, hp'⟩
    rcases ihq hqm with ⟨q', hq, hq'⟩
    refine ⟨.seq p' q', by rw [Written.meaning, hp, hq]; rfl, ?_⟩
    rw [straight?, hp', Option.bind_some, hq']
  | group index p ih =>
    rw [Written.straight?] at hw
    split at hw
    · rename_i hindex
      rw [Bool.and_eq_true] at hindex
      rcases meaning_plain switches hindex.2 with ⟨p', hp, hp'⟩
      refine ⟨.group index p', by rw [Written.meaning, hp]; rfl, ?_⟩
      rw [straight?, hp', hindex.1, ← hw]
      rfl
    · cases hw
  | _ => exact meaning_part switches hw

/-- Without groups that change switches, the switches in front are those of the whole pattern. -/
theorem opening_plain {switches : Switches} {w : Written} (hw : w.isPlain = true)
    {opening : Switches × Bool × List Member} (h : w.opening switches = some opening) :
    opening.1 = switches := by
  induction w with
  | set negative members => cases h; rfl
  | seq p q ihp ihq =>
    rw [Written.isPlain, Bool.and_eq_true] at hw
    exact ihp hw.1 h
  | group index p ih => cases hw
  | switched on off p ih => cases hw
  | _ => cases h

/-- Parts with groups in order set no switches. -/
theorem opening_straight {switches : Switches} {w : Written} {n top : Nat}
    (hw : w.straight? n = some top) {opening : Switches × Bool × List Member}
    (h : w.opening switches = some opening) : opening.1 = switches := by
  induction w generalizing n top with
  | set negative members => cases h; rfl
  | seq p q ihp ihq =>
    rcases Option.bind_eq_some_iff.1 hw with ⟨middle, hpm, -⟩
    exact ihp hpm h
  | group index p ih =>
    rw [Written.straight?] at hw
    split at hw
    · rename_i hindex
      rw [Bool.and_eq_true] at hindex
      exact opening_plain hindex.2 h
    · cases hw
  | switched on off p ih => cases hw
  | _ => cases h

theorem firstCheck_straight (switches : Switches) {w : Written} {n top : Nat}
    (hw : w.straight? n = some top) : w.firstCheck switches = none := by
  unfold Written.firstCheck
  split
  · rfl
  · rename_i inner negative members hopening
    have hinner : inner = switches := opening_straight hw hopening
    rw [hinner, if_pos (by simp)]

/-- Pieces that are written without a flaw denote the pattern that their parts mean. -/
theorem parse_layout {switches : Switches} {pieces : List Piece} {text : String}
    (htext : text.toList = layout pieces) (hpieces : ∀ piece ∈ pieces, piece.isSound = true)
    (hspaced : switches.contains .spaced = false)
    (halphabet : (switches.contains .ascii && switches.contains .unicode) = false) :
    ∃ p, (Written.sequence (layoutParts 0 pieces)).meaning switches = .ok p ∧
      parse switches text = .ok p ∧ p.straight? 0 = some (captureCount pieces) := by
  have hw : (Written.sequence (layoutParts 0 pieces)).straight? 0 = some (captureCount pieces) := by
    rw [straight_sequence, straightAll?_layoutParts, Nat.zero_add]
  rcases meaning_straight switches hw with ⟨p, hp, hstraight⟩
  refine ⟨p, hp, ?_, hstraight⟩
  rw [parse, htext, read_layout hpieces hspaced halphabet]
  simp only [bind, Except.bind, hp, firstCheck_straight switches hw]
  rfl

/-! ## Groups that are read -/

theorem straight_part {p : Pattern} {n top : Nat}
    (hp : (if p.isPlain then some n else none) = some top) : top = n := by
  split at hp
  · exact (Option.some.inj hp).symm
  · cases hp

/-- Groups are only counted upwards. -/
theorem straight_le {p : Pattern} {n top : Nat} (hp : p.straight? n = some top) : n ≤ top := by
  induction p generalizing n top with
  | seq p q ihp ihq =>
    rcases Option.bind_eq_some_iff.1 hp with ⟨middle, hpm, hqm⟩
    exact Nat.le_trans (ihp hpm) (ihq hqm)
  | group index p ih =>
    rw [straight?] at hp
    split at hp
    · rename_i hindex
      rw [Bool.and_eq_true, decide_eq_true_eq] at hindex
      exact Option.some.inj hp ▸ Nat.le_of_lt hindex.1
    · cases hp
  | _ => exact Nat.le_of_eq (straight_part hp).symm

/-- The group with the largest number is read in every match. -/
theorem last_group_of_matches {p : Pattern} {n top : Nat} (hp : p.straight? n = some top)
    (hlt : n < top) {text : List Char} {groups : List (Nat × List Char)}
    (h : p.Matches text groups) : ∃ t, (top, t) ∈ groups := by
  induction p generalizing n top text groups with
  | seq p q ihp ihq =>
    rcases Option.bind_eq_some_iff.1 hp with ⟨middle, hpm, hqm⟩
    rcases h with ⟨first, second, firstGroups, secondGroups, rfl, rfl, hfirst, hsecond⟩
    -- The last group is in the second part, unless that has none.
    rcases Nat.lt_or_eq_of_le (straight_le hqm) with hlast | rfl
    · rcases ihq hqm hlast hsecond with ⟨t, ht⟩
      exact ⟨t, List.mem_append_right _ ht⟩
    · rcases ihp hpm hlt hfirst with ⟨t, ht⟩
      exact ⟨t, List.mem_append_left _ ht⟩
  | group index p ih =>
    rw [straight?] at hp
    split at hp
    · rcases h with ⟨rfl, -⟩
      exact ⟨text, by rw [Option.some.inj hp]; exact List.mem_singleton_self _⟩
    · cases hp
  | _ => exact absurd (straight_part hp) (Nat.ne_of_gt hlt)

/-- A pattern with groups captures its last one wherever it is found. -/
theorem captured_of_find? {p : Pattern} {top : Nat} (hp : p.straight? 0 = some top) (hlt : 0 < top)
    {text : List Char} {found : Found} (h : p.find? text = some found) :
    ∃ t, found.stop.capture? top = some t := by
  rcases fits_of_find? hp h with ⟨before, piece, rest, -, hfits⟩
  rcases hfits.groups with ⟨groups, hmatch, hgroups⟩
  rcases last_group_of_matches hp hlt hmatch with ⟨t, ht⟩
  exact ⟨t, hgroups _ ht⟩

end JavaDeps.Pattern
