import JavaDeps.Pattern.Parse

/-!
# Steps of the reader

What the reader of written patterns does with single characters, sets and marks of repetition that
are written without a flaw.
-/

namespace JavaDeps.Pattern

/-! ## Steps of the reader -/

/-- The reader is at a rest of the text, with some switches on and so many groups opened. -/
structure Reader.On (switches : Switches) (groups : Nat) (rest : List Char) (r : Reader) :
    Prop where
  rest_eq : r.rest = rest
  switches_eq : r.switches = switches
  groups_eq : r.widths.length = groups
  asked_eq : r.asked = []

/-- After a reading that succeeds the next one goes on. -/
theorem read_bind {α β : Type} {a : Read α} {f : α → Read β} {r r' : Reader} {x : α}
    (h : a r = .ok (x, r')) : (a >>= f) r = f x r' := by
  show (a r >>= fun y => f y.1 y.2) = _
  rw [h]
  rfl

section

variable {switches : Switches} {groups : Nat} {rest : List Char} {r : Reader} {c : Char}

theorem tokenAt_plain (hc : c ≠ '\\') (rest : List Char) :
    tokenAt (c :: rest) = some (.plain c) := by
  unfold tokenAt
  split
  · simp_all
  · rename_i heq
    exact absurd (List.cons.inj heq).1 hc
  · rename_i heq
    rw [(List.cons.inj heq).1]

/-- A token is taken where it stands. -/
theorem take_token {t : Token} (h : r.On switches groups (t.chars ++ rest))
    (ht : tokenAt (t.chars ++ rest) = some t) (hrest : rest ≠ ['\\']) :
    ∃ r', take r = .ok (some t, r') ∧ r'.On switches groups rest := by
  have hdrop : r.rest.drop t.chars.length = rest := by
    rw [h.rest_eq]
    simp
  have hcheck : ∀ place, checkEnd { r with rest := rest, place := place } =
      .ok { r with rest := rest, place := place } := by
    intro place
    simp [checkEnd, hrest]
  refine ⟨{ r with rest := rest, place := r.place + t.chars.length }, ?_, rfl, h.switches_eq,
    h.groups_eq, h.asked_eq⟩
  unfold take
  rw [h.rest_eq, ht]
  simp only [← h.rest_eq, hdrop, hcheck]
  rfl

/-- A character that is no escape is taken as it is. -/
theorem take_plain (h : r.On switches groups (c :: rest)) (hc : c ≠ '\\') (hrest : rest ≠ ['\\']) :
    ∃ r', take r = .ok (some (.plain c), r') ∧ r'.On switches groups rest :=
  take_token (t := .plain c) h (tokenAt_plain hc rest) hrest

/-- An escaped character is taken with its escape. -/
theorem take_escaped (h : r.On switches groups ('\\' :: c :: rest)) (hrest : rest ≠ ['\\']) :
    ∃ r', take r = .ok (some (.escaped c), r') ∧ r'.On switches groups rest :=
  take_token (t := .escaped c) h rfl hrest

theorem peek_eq (h : r.On switches groups rest) : peek r = .ok (tokenAt rest, r) := by
  rw [peek, h.rest_eq]

/-- A character that stands next is accepted. -/
theorem accept_hit (h : r.On switches groups (c :: rest)) (hc : c ≠ '\\') (hrest : rest ≠ ['\\']) :
    ∃ r', accept c r = .ok (true, r') ∧ r'.On switches groups rest := by
  rcases take_plain h hc hrest with ⟨r', htake, hr'⟩
  have hnext : isNext c r = .ok (true, r) := by
    rw [isNext, read_bind (peek_eq h), tokenAt_plain hc, beq_self_eq_true]
    rfl
  refine ⟨r', ?_, hr'⟩
  rw [accept, read_bind hnext, if_pos rfl, read_bind htake]
  rfl

/-- A character that does not stand next is not accepted. -/
theorem accept_miss (h : r.On switches groups rest) (hrest : tokenAt rest ≠ some (.plain c)) :
    accept c r = .ok (false, r) := by
  have hnext : isNext c r = .ok (false, r) := by
    rw [isNext, read_bind (peek_eq h)]
    have hne : (tokenAt rest == some (.plain c)) = false := by simpa using hrest
    rw [hne]
    rfl
  rw [accept, read_bind hnext]
  rfl

end

/-! ## What is read -/

/-- Whether a written part means a plain pattern, whatever the switches are. -/
def Written.isPlain : Written → Bool
  | .empty => true
  | .code _ => true
  | .any => true
  | .set _ _ => true
  | .seq p q => p.isPlain && q.isPlain
  | .alt p q => p.isPlain && q.isPlain
  | .rep p _ _ greed => p.isPlain && greed != .possessive
  | _ => false

/-- Whether a written part fits one character that is given by its code or by a set. -/
def Written.isLeaf : Written → Bool
  | .code _ => true
  | .set _ _ => true
  | _ => false

theorem isPlain_of_isLeaf {w : Written} (hw : w.isLeaf = true) : w.isPlain = true := by
  cases w <;> first | rfl | cases hw

theorem repeatable_of_isLeaf {w : Written} (hw : w.isLeaf = true) :
    (Part.one w).repeatable = .ok w := by
  cases w <;> first | rfl | cases hw

theorem isPlain_sequence {ws : List Written} (h : ∀ w ∈ ws, w.isPlain = true) :
    (Written.sequence ws).isPlain = true := by
  fun_induction Written.sequence ws with
  | case1 => rfl
  | case2 p => exact h p List.mem_cons_self
  | case3 p rest hne ih =>
    have hrest := ih (fun w hw => h w (List.mem_cons_of_mem _ hw))
    simp [Written.isPlain, hrest, h p List.mem_cons_self]

theorem isPlain_firstOf {ws : List Written} (h : ∀ w ∈ ws, w.isPlain = true) :
    (Written.firstOf ws).isPlain = true := by
  fun_induction Written.firstOf ws with
  | case1 => rfl
  | case2 p => exact h p List.mem_cons_self
  | case3 p rest hne ih =>
    have hrest := ih (fun w hw => h w (List.mem_cons_of_mem _ hw))
    simp [Written.isPlain, hrest, h p List.mem_cons_self]

/-- The common start of plain alternatives is plain, and so is what is left of them. -/
theorem isPlain_commonStart {first : List Written} {others : List (List Written)}
    (hfirst : ∀ w ∈ first, w.isPlain = true)
    (hothers : ∀ other ∈ others, ∀ w ∈ other, w.isPlain = true) :
    (∀ w ∈ (Written.commonStart first others).1, w.isPlain = true) ∧
      ∀ other ∈ (Written.commonStart first others).2, ∀ w ∈ other, w.isPlain = true := by
  fun_induction Written.commonStart first others with
  | case1 others => exact ⟨by simp, by simpa using hothers⟩
  | case2 p rest others hall common alternatives heq ih =>
    have htails : ∀ other ∈ others.map List.tail, ∀ w ∈ other, w.isPlain = true := by
      intro other hother w hw
      rcases List.mem_map.1 hother with ⟨other', hother', rfl⟩
      exact hothers other' hother' w (List.mem_of_mem_tail hw)
    have hrest := ih (fun w hw => hfirst w (List.mem_cons_of_mem _ hw)) htails
    rw [heq] at hrest
    refine ⟨fun w hw => ?_, hrest.2⟩
    rcases List.mem_cons.1 hw with rfl | hw
    · exact hfirst w List.mem_cons_self
    · exact hrest.1 w hw
  | case3 p rest others hall =>
    refine ⟨by simp, fun other hother => ?_⟩
    rcases List.mem_cons.1 hother with rfl | hother
    · exact hfirst
    · exact hothers other hother

/-- A choice between plain alternatives is plain. -/
theorem isPlain_choice {alternatives : List (List Written)}
    (h : ∀ alternative ∈ alternatives, ∀ w ∈ alternative, w.isPlain = true) :
    ∀ w ∈ Written.choice alternatives, w.isPlain = true := by
  fun_cases Written.choice alternatives with
  | case1 => simp
  | case2 only => exact h only List.mem_cons_self
  | case3 first others hne common rest heq sets hsets =>
    have hcommon := isPlain_commonStart (h first List.mem_cons_self)
      (fun other hother => h other (List.mem_cons_of_mem _ hother))
    rw [heq] at hcommon
    intro w hw
    rcases List.mem_append.1 hw with hw | hw
    · exact hcommon.1 w hw
    · rw [List.mem_singleton.1 hw]
      rfl
  | case4 first others hne common rest heq hsets =>
    have hcommon := isPlain_commonStart (h first List.mem_cons_self)
      (fun other hother => h other (List.mem_cons_of_mem _ hother))
    rw [heq] at hcommon
    intro w hw
    rcases List.mem_append.1 hw with hw | hw
    · exact hcommon.1 w hw
    · rw [List.mem_singleton.1 hw]
      refine isPlain_firstOf (fun w hw => ?_)
      rcases List.mem_map.1 hw with ⟨other, hother, rfl⟩
      exact isPlain_sequence (hcommon.2 other hother)

/-! ## Escaped characters and sets -/

/-- The escaped characters that are used: blanks, characters of words, and brackets. -/
def isEscapable (c : Char) : Bool :=
  ['s', 'w', '(', ')', '[', ']', '\x7b', '\x7d', '.'].contains c

def escapedMember (c : Char) : Member := (classOf? c).getD (.code c.toNat)

def escapedPart (c : Char) : Written :=
  match classOf? c with
  | some cls => .set false [cls]
  | none => .code c.toNat

/-- What a set is read as: a set of one character is read as that character. -/
def setPart : Bool → List Member → Written
  | false, [.code n] => .code n
  | negative, members => .set negative members

theorem isLeaf_escapedPart (c : Char) : (escapedPart c).isLeaf = true := by
  unfold escapedPart
  split <;> rfl

theorem isLeaf_setPart (negative : Bool) (members : List Member) :
    (setPart negative members).isLeaf = true := by
  unfold setPart
  split <;> rfl

/-- A part of a set: a character, a range or an escaped character. -/
inductive SetSign where
  | char (c : Char)
  | range (low high : Char)
  | escape (c : Char)

namespace SetSign

def text : SetSign → List Char
  | char c => [c]
  | range low high => [low, '-', high]
  | escape c => ['\\', c]

def member : SetSign → Member
  | char c => .code c.toNat
  | range low high => .range low.toNat high.toNat
  | escape c => escapedMember c

def isBare (c : Char) : Bool := !(['\\', ']', '-', '^'].contains c)

def isSound : SetSign → Bool
  | char c => isBare c
  | range low high => isBare low && isBare high && low.toNat ≤ high.toNat
  | escape c => isEscapable c

end SetSign

section

variable {switches : Switches} {groups : Nat} {rest : List Char} {r : Reader} {c : Char}

theorem isBare_ne (h : SetSign.isBare c = true) : c ≠ '\\' ∧ c ≠ ']' ∧ c ≠ '-' ∧ c ≠ '^' := by
  refine ⟨?_, ?_, ?_, ?_⟩ <;> rintro rfl <;> exact absurd h (by decide)

/-- Only few characters are escaped. -/
theorem escapable_cases (hc : isEscapable c = true) :
    c = 's' ∨ c = 'w' ∨ c = '(' ∨ c = ')' ∨ c = '[' ∨ c = ']' ∨ c = '\x7b' ∨ c =
      '\x7d' ∨ c = '.' := by
  simpa [isEscapable] using hc

theorem readSetEscape_eq (hc : isEscapable c = true) (r : Reader) :
    readSetEscape c r = .ok (escapedMember c, r) := by
  rcases escapable_cases hc with rfl | rfl | rfl | rfl | rfl | rfl | rfl | rfl | rfl <;> rfl

/-- A part of a set looks neither like the middle of a range nor like the mark of a complement. -/
theorem tokenAt_sign {sign : SetSign} (hsign : sign.isSound = true) (rest : List Char) :
    tokenAt (sign.text ++ rest) ≠ some (.plain '-') ∧
      tokenAt (sign.text ++ rest) ≠ some (.plain '^') := by
  have hbare : ∀ {c : Char} (rest : List Char), SetSign.isBare c = true →
      tokenAt (c :: rest) ≠ some (.plain '-') ∧ tokenAt (c :: rest) ≠ some (.plain '^') := by
    intro c rest hc
    have hne := isBare_ne hc
    rw [tokenAt_plain hne.1]
    exact ⟨by simpa using hne.2.2.1, by simpa using hne.2.2.2⟩
  cases sign with
  | char c => exact hbare _ hsign
  | range low high =>
    simp only [SetSign.isSound, Bool.and_eq_true] at hsign
    exact hbare _ hsign.1.1
  | escape c => simp [SetSign.text, tokenAt]

def EndsSign (rest : List Char) : Prop := rest ≠ ['\\'] ∧ tokenAt rest ≠ some (.plain '-')

theorem endsSign_text {signs : List SetSign} (hsigns : ∀ sign ∈ signs, sign.isSound = true)
    (rest : List Char) : EndsSign (signs.flatMap SetSign.text ++ ']' :: rest) := by
  cases signs with
  | nil =>
      exact ⟨by simp, by rw [List.flatMap_nil, List.nil_append, tokenAt_plain (by decide)]; decide⟩
  | cons sign more =>
    rw [List.flatMap_cons, List.append_assoc]
    refine ⟨?_, (tokenAt_sign (hsigns sign List.mem_cons_self) _).1⟩
    cases sign with
    | char c => simp [SetSign.text]
    | range low high => simp [SetSign.text]
    | escape c => simp [SetSign.text]

/-- One sign of a set is read as its member. -/
theorem readMembers_sign {sign : SetSign} (hsign : sign.isSound = true) (start bound : Nat)
    (before : List Member) (hrest : EndsSign rest) (h : r.On switches groups (sign.text ++ rest)) :
    ∃ r', readMembers start (bound + 1) before r =
        readMembers start bound (before ++ [sign.member]) r' ∧ r'.On switches groups rest := by
  cases sign with
  | char c =>
    have hc := isBare_ne hsign
    rcases take_plain h hc.1 hrest.1 with ⟨r', htake, hr'⟩
    refine ⟨r', ?_, hr'⟩
    have hread : readMember (.plain c) r' = .ok (.code c.toNat, r') := rfl
    have hclose : (Token.plain c == .plain ']' && !before.isEmpty) = false := by
      have : (Token.plain c == .plain ']') = false := by simpa using hc.2.1
      rw [this, Bool.false_and]
    rw [readMembers, read_bind htake]
    simp only [hclose, Bool.false_eq_true, if_false]
    rw [read_bind hread, read_bind (accept_miss hr' hrest.2)]
    rfl
  | range low high =>
    simp only [SetSign.isSound, Bool.and_eq_true, decide_eq_true_eq] at hsign
    rcases hsign with ⟨⟨hlow, hhigh⟩, hle⟩
    have hlow' := isBare_ne hlow
    have hhigh' := isBare_ne hhigh
    -- The lower end, the hyphen and the upper end are read one by one.
    rcases take_plain h hlow'.1 (by simp) with ⟨r₁, htake₁, h₁⟩
    rcases accept_hit h₁ (by decide) (by simp [hhigh'.1]) with ⟨r₂, haccept, h₂⟩
    rcases take_plain h₂ hhigh'.1 hrest.1 with ⟨r', htake₂, hr'⟩
    refine ⟨r', ?_, hr'⟩
    have hread : ∀ (c : Char) (r : Reader), readMember (.plain c) r = .ok (.code c.toNat, r) :=
      fun _ _ => rfl
    have hclose : (Token.plain low == .plain ']' && !before.isEmpty) = false := by
      have : (Token.plain low == .plain ']') = false := by simpa using hlow'.2.1
      rw [this, Bool.false_and]
    have hclose' : (Token.plain high == .plain ']') = false := by simpa using hhigh'.2.1
    have hrange : rangeOf (.plain low) (.plain high) (.code low.toNat) (.code high.toNat) r' =
        .ok (.range low.toNat high.toNat, r') := by
      simp only [rangeOf, if_neg (Nat.not_lt.2 hle)]
      rfl
    rw [readMembers, read_bind htake₁]
    simp only [hclose, Bool.false_eq_true, if_false]
    rw [read_bind (hread low r₁), read_bind haccept, if_pos rfl, read_bind htake₂]
    simp only [hclose', Bool.false_eq_true, if_false]
    rw [read_bind (hread high r'), read_bind hrange]
    rfl
  | escape c =>
    rcases take_escaped h hrest.1 with ⟨r', htake, hr'⟩
    refine ⟨r', ?_, hr'⟩
    have hread : readMember (.escaped c) r' = .ok (escapedMember c, r') := readSetEscape_eq hsign r'
    rw [readMembers, read_bind htake]
    simp only [show (Token.escaped c == .plain ']') = false from rfl, Bool.false_and,
      Bool.false_eq_true, if_false]
    rw [read_bind hread, read_bind (accept_miss hr' hrest.2)]
    rfl

/-- The signs of a set are read as its members. -/
theorem readMembers_eq {signs : List SetSign} (hsigns : ∀ sign ∈ signs, sign.isSound = true)
    (start bound : Nat) (before : List Member) (hbound : signs.length < bound)
    (hsome : before ≠ [] ∨ signs ≠ []) (hrest : rest ≠ ['\\'])
    (h : r.On switches groups (signs.flatMap SetSign.text ++ ']' :: rest)) :
    ∃ r', readMembers start bound before r = .ok (before ++ signs.map SetSign.member, r') ∧
      r'.On switches groups rest := by
  induction signs generalizing before bound r with
  | nil =>
    rcases take_plain h (by decide) hrest with ⟨r', htake, hr'⟩
    refine ⟨r', ?_, hr'⟩
    have hsome' : before.isEmpty = false := by simpa using hsome
    rcases Nat.exists_eq_succ_of_ne_zero (Nat.ne_of_gt hbound) with ⟨n, rfl⟩
    rw [readMembers, read_bind htake, hsome', List.map_nil, List.append_nil]
    rfl
  | cons sign more ih =>
    have hmore : ∀ sign ∈ more, sign.isSound = true :=
      fun sign' hsign' => hsigns sign' (List.mem_cons_of_mem _ hsign')
    rw [List.flatMap_cons, List.append_assoc] at h
    rcases Nat.exists_eq_succ_of_ne_zero (Nat.ne_of_gt (Nat.zero_lt_of_lt hbound)) with ⟨n, rfl⟩
    rcases readMembers_sign (hsigns sign List.mem_cons_self) start n before
      (endsSign_text hmore rest) h with ⟨r₁, heq, h₁⟩
    have hbound' : more.length < n := by
      simpa using hbound
    rcases ih hmore n (before ++ [sign.member]) hbound' (Or.inl (by simp)) h₁ with ⟨r', hread, hr'⟩
    rw [List.append_assoc, List.singleton_append] at hread
    exact ⟨r', heq.trans hread, hr'⟩

theorem length_le_texts (signs : List SetSign) :
    signs.length ≤ (signs.flatMap SetSign.text).length := by
  induction signs with
  | nil => simp
  | cons sign more ih =>
    have hsign : 1 ≤ sign.text.length := by cases sign <;> simp [SetSign.text]
    simp only [List.length_cons, List.flatMap_cons, List.length_append]
    omega

/-- A set is read to its closing bracket. -/
theorem readSet_eq {negative : Bool} {signs : List SetSign}
    (hsigns : ∀ sign ∈ signs, sign.isSound = true) (hsome : signs ≠ []) (hrest : rest ≠ ['\\'])
    (h : r.On switches groups
      ((if negative then ['^'] else []) ++ (signs.flatMap SetSign.text ++ ']' :: rest))) :
    ∃ r', readSet r = .ok (setPart negative (signs.map SetSign.member).eraseDups, r') ∧
      r'.On switches groups rest := by
  have hmark : ∃ r₁, accept '^' r = .ok (negative, r₁) ∧
      r₁.On switches groups (signs.flatMap SetSign.text ++ ']' :: rest) := by
    cases negative with
    | true => exact accept_hit h (by decide) (endsSign_text hsigns rest).1
    | false =>
      rcases List.exists_cons_of_ne_nil hsome with ⟨sign, more, rfl⟩
      have hsign := hsigns sign List.mem_cons_self
      refine ⟨r, accept_miss h ?_, h⟩
      rw [if_neg (by decide), List.nil_append, List.flatMap_cons, List.append_assoc]
      exact (tokenAt_sign hsign _).2
  rcases hmark with ⟨r₁, haccept, h₁⟩
  -- Every sign takes a character at least, so the bound is not reached.
  have hlength : signs.length < r₁.rest.length + 1 := by
    have hle := length_le_texts signs
    rw [h₁.rest_eq]
    simp only [List.length_append, List.length_cons]
    omega
  rcases readMembers_eq hsigns (r.place - 1) (r₁.rest.length + 1) [] hlength (Or.inr hsome) hrest h₁
    with ⟨r', hread, hr'⟩
  refine ⟨r', ?_, hr'⟩
  have hhere : here r = .ok (r.place, r) := rfl
  have hget : (get : Read Reader) r₁ = .ok (r₁, r₁) := rfl
  rw [readSet, read_bind hhere, read_bind haccept, read_bind hget, read_bind hread]
  cases negative with
  | true => rfl
  | false =>
    rw [List.nil_append]
    rcases (signs.map SetSign.member).eraseDups with _ | ⟨m, _ | ⟨m', more⟩⟩
    · rfl
    · cases m <;> rfl
    · cases m <;> rfl

theorem readEscape_eq (hc : isEscapable c = true) (r : Reader) :
    readEscape c r = .ok (escapedPart c, r) := by
  rcases escapable_cases hc with rfl | rfl | rfl | rfl | rfl | rfl | rfl | rfl | rfl <;> rfl

end

/-! ## Steps of a sequence -/

section

variable {switches : Switches} {groups : Nat} {rest : List Char} {r : Reader} {c : Char}
  (bound depth : Nat) (first : Bool) (before : List Part)

/-- A sequence stops at the end, at a bar and at a closing bracket. -/
theorem readSequence_stop (h : r.On switches groups rest)
    (hrest : tokenAt rest = none ∨ tokenAt rest = some (.plain '|') ∨
      tokenAt rest = some (.plain ')')) :
    readSequence (bound + 1) depth false first before r =
      .ok (before.reverse.flatMap Part.parts, r) := by
  rw [readSequence, read_bind (peek_eq h)]
  rcases hrest with hrest | hrest | hrest <;> rw [hrest] <;> rfl

/-- An escaped character is read as a part of the sequence. -/
theorem readSequence_escaped (h : r.On switches groups ('\\' :: c :: rest))
    (hc : isEscapable c = true) (hrest : rest ≠ ['\\']) :
    ∃ r', r'.On switches groups rest ∧
      readSequence (bound + 1) depth false first before r =
        readSequence bound depth false first (.one (escapedPart c) :: before) r' := by
  rcases take_escaped h hrest with ⟨r', htake, hr'⟩
  refine ⟨r', hr', ?_⟩
  rw [readSequence, read_bind (peek_eq h)]
  simp only [show tokenAt ('\\' :: c :: rest) = some (.escaped c) from rfl]
  rw [if_neg (by simp), read_bind htake]
  exact read_bind (readEscape_eq hc r')

/-- A character that does not end the sequence is taken, and then the part it begins is read. -/
theorem readSequence_plain (h : r.On switches groups (c :: rest))
    (hc : c ≠ '\\' ∧ c ≠ '|' ∧ c ≠ ')')
    (hrest : rest ≠ ['\\']) :
    ∃ r₁, r₁.On switches groups rest ∧
      (c ≠ '(' → ∀ parts r', readPart before c r₁ = .ok (parts, r') →
        readSequence (bound + 1) depth false first before r =
          readSequence bound depth false first parts r') ∧
      (c = '(' → ∀ part r',
        readGroup bound depth false (first && before.isEmpty) r₁ = .ok (some part, r') →
        readSequence (bound + 1) depth false first before r =
          readSequence bound depth false first (part :: before) r') := by
  rcases take_plain h hc.1 hrest with ⟨r₁, htake, h₁⟩
  have hstop : (tokenAt (c :: rest) == none || tokenAt (c :: rest) == some (.plain '|') ||
      tokenAt (c :: rest) == some (.plain ')')) = false := by
    rw [tokenAt_plain hc.1]
    simpa using hc.2
  refine ⟨r₁, h₁, ?_, ?_⟩
  · intro hne parts r' hread
    rw [readSequence, read_bind (peek_eq h), hstop, if_neg (by decide), read_bind htake]
    simp only [Bool.false_and, Bool.false_eq_true, if_false, beq_iff_eq, if_neg hne]
    exact read_bind hread
  · intro heq part r' hread
    rw [readSequence, read_bind (peek_eq h), hstop, if_neg (by decide), read_bind htake]
    simp only [Bool.false_and, Bool.false_eq_true, if_false, beq_iff_eq, if_pos heq]
    exact read_bind hread

end

/-! ## Characters and marks -/

def isOrdinary (c : Char) : Bool :=
  !(['\\', '[', '.', '^', '$', '?', '*', '+', '\x7b', '(', ')', '|'].contains c)

/-- A mark of repetition. -/
inductive Mark where
  | optional
  | many
  | many1

def Mark.char : Mark → Char
  | optional => '?'
  | many => '*'
  | many1 => '+'

def Mark.repeated (w : Written) : Mark → Written
  | optional => .rep w 0 (some 1) .greedy
  | many => .rep w 0 none .greedy
  | many1 => .rep w 1 none .greedy

/-- What follows a mark must not change its order. -/
def EndsMark (rest : List Char) : Prop :=
  tokenAt rest ≠ some (.plain '?') ∧ tokenAt rest ≠ some (.plain '+')

section

variable {switches : Switches} {groups : Nat} {rest : List Char} {r : Reader} {c : Char}

theorem isOrdinary_ne (hc : isOrdinary c = true) :
    c ≠ '\\' ∧ c ≠ '|' ∧ c ≠ ')' ∧ c ≠ '(' ∧ c ≠ '?' ∧ c ≠ '+' := by
  refine ⟨?_, ?_, ?_, ?_, ?_, ?_⟩ <;> rintro rfl <;> exact absurd hc (by decide)

/-- An ordinary character is read as itself. -/
theorem readPart_ordinary (hc : isOrdinary c = true) (before : List Part) (r : Reader) :
    readPart before c r = .ok (.one (.code c.toNat) :: before, r) := by
  unfold readPart
  split
  all_goals first | rfl | exact absurd hc (by decide)

/-- Without a sign for it, a repetition is greedy. -/
theorem readGreed_greedy (h : r.On switches groups rest) (hrest : EndsMark rest) :
    readGreed r = .ok (.greedy, r) := by
  rw [readGreed, read_bind (accept_miss h hrest.1), if_neg (by decide),
    read_bind (accept_miss h hrest.2)]
  rfl

theorem isPlain_repeated {w : Written} (hw : w.isPlain = true) (mark : Mark) :
    (mark.repeated w).isPlain = true := by
  cases mark <;> simp [Mark.repeated, Written.isPlain, hw]

/-- A mark repeats the part before it. -/
theorem readPart_mark {part : Part} {w : Written} (hpart : part.repeatable = .ok w)
    (h : r.On switches groups rest) (hrest : EndsMark rest) (mark : Mark) (before : List Part) :
    readPart (part :: before) mark.char r = .ok (.one (mark.repeated w) :: before, r) := by
  have hlast : ∀ start least most, repeatLast start least most (part :: before) r =
      .ok (.one (.rep w least most .greedy) :: before, r) := by
    intro start least most
    simp only [repeatLast, hpart]
    rw [read_bind (readGreed_greedy h hrest)]
    rfl
  cases mark with
  | optional => exact hlast r.place 0 (some 1)
  | many => exact hlast r.place 0 none
  | many1 => exact hlast r.place 1 none

end

end JavaDeps.Pattern
