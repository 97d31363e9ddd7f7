import JavaDeps.Proofs.Pattern.Reading

/-!
# Shapes of written patterns

The written patterns of this library are put together from words, escaped characters, sets, groups
and marks of repetition. What is written in this way is read without a flaw, whatever the words are,
and it is read as what it looks like.
-/

namespace JavaDeps.Pattern

/-- How a pattern without captures is put together: from words, escaped characters, sets, groups
that may give other words, repetitions and sequences. -/
inductive Shape where
  | word (chars : List Char)
  | escape (c : Char)
  | set (negative : Bool) (signs : List SetSign)
  | group (body : Shape) (words : List (List Char))
  | marked (body : Shape) (mark : Mark)
  | seq (first second : Shape)

/-- How the alternatives of a group behind the first one are written. -/
def othersText (words : List (List Char)) : List Char := words.flatMap (fun word => '|' :: word)

def wordParts (chars : List Char) : List Written := chars.map (fun c => .code c.toNat)

namespace Shape

def text : Shape → List Char
  | word chars => chars
  | escape c => ['\\', c]
  | set negative signs =>
    '[' :: ((if negative then ['^'] else []) ++ (signs.flatMap SetSign.text ++ [']']))
  | group body words =>
    '(' :: '?' :: ':' :: (body.text ++ (othersText words ++ [')']))
  | marked body mark => body.text ++ [mark.char]
  | seq first second => first.text ++ second.text

def isSingle : Shape → Bool
  | escape _ => true
  | set _ _ => true
  | group _ _ => true
  | _ => false

def isSound : Shape → Bool
  | word chars => chars.all isOrdinary
  | escape c => isEscapable c
  | set _ signs => !signs.isEmpty && signs.all SetSign.isSound
  | group body words => body.isSound && words.all (fun word => word.all isOrdinary)
  | marked body _ => body.isSingle && body.isSound
  | seq first second => first.isSound && second.isSound

def parts : Shape → List Written
  | word chars => wordParts chars
  | escape c => [escapedPart c]
  | set negative signs => [setPart negative (signs.map SetSign.member).eraseDups]
  | group body words => Written.choice (body.parts :: words.map wordParts)
  | marked body mark => [mark.repeated (Written.sequence body.parts)]
  | seq first second => first.parts ++ second.parts

def height : Shape → Nat
  | group body _ => body.height + 1
  | marked body _ => body.height
  | seq first second => max first.height second.height
  | _ => 0

end Shape

/-- What a shape is read as means plain patterns. -/
theorem isPlain_parts (s : Shape) : ∀ w ∈ s.parts, w.isPlain = true := by
  have hword : ∀ chars : List Char, ∀ w ∈ wordParts chars, w.isPlain = true := by
    intro chars w hw
    rcases List.mem_map.1 hw with ⟨c, -, rfl⟩
    rfl
  induction s with
  | word chars => exact hword chars
  | escape c => simpa [Shape.parts] using isPlain_of_isLeaf (isLeaf_escapedPart c)
  | set negative signs => simpa [Shape.parts] using isPlain_of_isLeaf (isLeaf_setPart _ _)
  | group body words ih =>
    refine isPlain_choice (fun alternative halternative => ?_)
    rcases List.mem_cons.1 halternative with rfl | halternative
    · exact ih
    · rcases List.mem_map.1 halternative with ⟨word, -, rfl⟩
      exact hword word
  | marked body mark ih => simpa [Shape.parts] using isPlain_repeated (isPlain_sequence ih) mark
  | seq first second ihf ihs =>
    intro w hw
    rcases List.mem_append.1 hw with hw | hw
    · exact ihf w hw
    · exact ihs w hw

section

variable {switches : Switches} {groups : Nat} {rest : List Char} {r : Reader}

/-! ## What stands in front -/

theorem endsMark_single {s : Shape} (hs : s.isSingle = true) (rest : List Char) :
    s.text ++ rest ≠ ['\\'] ∧ EndsMark (s.text ++ rest) := by
  cases s with
  | escape c => exact ⟨by simp [Shape.text], by simp [EndsMark, Shape.text, tokenAt]⟩
  | set negative signs =>
    refine ⟨by simp [Shape.text], ?_⟩
    rw [EndsMark, Shape.text, List.cons_append, tokenAt_plain (by decide)]
    decide
  | group body words =>
    refine ⟨by simp [Shape.text], ?_⟩
    rw [EndsMark, Shape.text, List.cons_append, tokenAt_plain (by decide)]
    decide
  | word chars => cases hs
  | marked body mark => cases hs
  | seq first second => cases hs

theorem endsMark_word {chars : List Char} (hchars : chars.all isOrdinary = true)
    (hrest : rest ≠ ['\\']) (hmark : EndsMark rest) :
    chars ++ rest ≠ ['\\'] ∧ EndsMark (chars ++ rest) := by
  cases chars with
  | nil => exact ⟨hrest, hmark⟩
  | cons c more =>
    have hc := isOrdinary_ne (List.all_eq_true.1 hchars c List.mem_cons_self)
    refine ⟨fun h => hc.1 (List.cons.inj h).1, ?_⟩
    rw [EndsMark, List.cons_append, tokenAt_plain hc.1]
    exact ⟨by simpa using hc.2.2.2.2.1, by simpa using hc.2.2.2.2.2⟩

/-- A sound shape can follow a mark if what is behind it can. -/
theorem endsMark_shape {s : Shape} (hs : s.isSound = true) (hrest : rest ≠ ['\\'])
    (hmark : EndsMark rest) : s.text ++ rest ≠ ['\\'] ∧ EndsMark (s.text ++ rest) := by
  induction s generalizing rest with
  | word chars => exact endsMark_word hs hrest hmark
  | escape c => exact endsMark_single rfl rest
  | set negative signs => exact endsMark_single rfl rest
  | group body words ih => exact endsMark_single rfl rest
  | marked body mark ih =>
    have hbody : body.isSingle = true := by
      rw [Shape.isSound, Bool.and_eq_true] at hs
      exact hs.1
    rw [Shape.text, List.append_assoc]
    exact endsMark_single hbody _
  | seq first second ihf ihs =>
    rw [Shape.isSound, Bool.and_eq_true] at hs
    have hsecond := ihs hs.2 hrest hmark
    rw [Shape.text, List.append_assoc]
    exact ihf hs.1 hsecond.1 hsecond.2

/-! ## Words -/

/-- A word of ordinary characters is read part by part. -/
theorem readSequence_word {chars : List Char} (hchars : chars.all isOrdinary = true)
    (hrest : rest ≠ ['\\']) (bound depth : Nat) (first : Bool) (before : List Part)
    (h : r.On switches groups (chars ++ rest)) :
    ∃ r', r'.On switches groups rest ∧
      readSequence (bound + chars.length) depth false first before r =
        readSequence bound depth false first (((wordParts chars).map Part.one).reverse ++ before)
          r' := by
  induction chars generalizing before r with
  | nil => exact ⟨r, h, rfl⟩
  | cons c more ih =>
    have hc := List.all_eq_true.1 hchars c List.mem_cons_self
    have hmore : more.all isOrdinary = true := by
      rw [List.all_cons, Bool.and_eq_true] at hchars
      exact hchars.2
    have hne := isOrdinary_ne hc
    -- A reader looks at the next sign ahead of time, and a lone escape would be a flaw.
    have hend : more ++ rest ≠ ['\\'] := by
      cases more with
      | nil => exact hrest
      | cons d more' =>
        have hd := isOrdinary_ne (List.all_eq_true.1 hmore d List.mem_cons_self)
        exact fun heq => hd.1 (List.cons.inj heq).1
    rcases readSequence_plain (bound + more.length) depth first before h
      ⟨hne.1, hne.2.1, hne.2.2.1⟩ hend with ⟨r₁, h₁, hplain, -⟩
    have hstep := hplain hne.2.2.2.1 _ _ (readPart_ordinary hc before r₁)
    rcases ih hmore (.one (.code c.toNat) :: before) h₁ with ⟨r', hr', hread⟩
    refine ⟨r', hr', ?_⟩
    rw [wordParts, List.map_cons, List.map_cons, List.reverse_cons, List.append_assoc,
      List.singleton_append]
    exact hstep.trans hread

/-- Parts that stand for themselves are given as they are. -/
theorem flatMap_parts_one (ws : List Written) :
    ((ws.map Part.one).reverse).reverse.flatMap Part.parts = ws := by
  rw [List.reverse_reverse]
  induction ws with
  | nil => rfl
  | cons w more ih => rw [List.map_cons, List.flatMap_cons, ih]; rfl

/-! ## Groups -/

/-- Behind an alternative stands another one or the end of the group. -/
theorem tokenAt_others (words : List (List Char)) (rest : List Char) :
    tokenAt (othersText words ++ ')' :: rest) = some (.plain '|') ∨
      tokenAt (othersText words ++ ')' :: rest) = some (.plain ')') := by
  cases words with
  | nil => exact Or.inr (tokenAt_plain (by decide) rest)
  | cons word more => exact Or.inl (tokenAt_plain (by decide) _)

theorem endsMark_others (words : List (List Char)) (rest : List Char) :
    othersText words ++ ')' :: rest ≠ ['\\'] ∧ EndsMark (othersText words ++ ')' :: rest) := by
  refine ⟨by cases words <;> simp [othersText], ?_⟩
  rw [EndsMark]
  rcases tokenAt_others words rest with htoken | htoken <;> rw [htoken] <;> decide

theorem othersText_cons (word : List Char) (more : List (List Char)) :
    othersText (word :: more) = '|' :: (word ++ othersText more) := rfl

/-- Further alternatives are read as words. -/
theorem readOthers_words {words : List (List Char)}
    (hwords : words.all (fun word => word.all isOrdinary) = true) (bound depth : Nat)
    (hdepth : depth ≠ 0)
    (hbound : 2 * (othersText words).length < bound)
    (h : r.On switches groups (othersText words ++ ')' :: rest)) :
    ∃ r', r'.On switches groups (')' :: rest) ∧
      readOthers bound depth false r = .ok (words.map wordParts, r') := by
  rcases Nat.exists_eq_succ_of_ne_zero (Nat.ne_of_gt (Nat.zero_lt_of_lt hbound)) with ⟨n, rfl⟩
  induction words generalizing n r with
  | nil =>
    refine ⟨r, h, ?_⟩
    have hmiss : tokenAt (')' :: rest) ≠ some (.plain '|') := by
      rw [tokenAt_plain (by decide)]
      decide
    rw [readOthers, read_bind (accept_miss h hmiss)]
    rfl
  | cons word more ih =>
    rw [List.all_cons, Bool.and_eq_true] at hwords
    rw [othersText_cons, List.length_cons, List.length_append] at hbound
    rw [othersText_cons, List.cons_append, List.append_assoc] at h
    have hends := endsMark_others more rest
    have hnext : word ++ (othersText more ++ ')' :: rest) ≠ ['\\'] := by
      cases word with
      | nil => exact hends.1
      | cons c chars =>
        have hc := isOrdinary_ne (List.all_eq_true.1 hwords.1 c List.mem_cons_self)
        exact fun heq => hc.1 (List.cons.inj heq).1
    rcases accept_hit h (by decide) hnext with ⟨r₁, haccept, h₁⟩
    have hget : (get : Read Reader) r₁ = .ok (r₁, r₁) := rfl
    -- One step for each character of the word, and one to see where it ends.
    have hn : n = (n - word.length - 1) + 1 + word.length := by omega
    rcases readSequence_word hwords.1 hends.1 (n - word.length - 1 + 1) (depth + 1) false [] h₁
      with ⟨r₂, h₂, hword⟩
    rw [← hn, List.append_nil,
      readSequence_stop _ _ _ _ h₂ (Or.inr (tokenAt_others more rest)), flatMap_parts_one] at hword
    have hm : n = n - 1 + 1 := by omega
    rcases ih hwords.2 h₂ (n - 1) (by omega) with ⟨r', hr', hread⟩
    rw [Nat.succ_eq_add_one, ← hm] at hread
    refine ⟨r', hr', ?_⟩
    have hdepth' : (depth == 0) = false := by simpa using hdepth
    rw [readOthers, read_bind haccept, if_pos rfl, read_bind hget]
    simp only [hdepth', Bool.false_eq_true, if_false]
    rw [read_bind hword, read_bind hread]
    rfl

end

/-- A shape is read without a flaw from a sequence: it gives its parts, in reverse, and a single
shape gives one part that can be repeated. -/
def Shape.Readable (s : Shape) : Prop :=
  ∀ ⦃switches : Switches⦄ ⦃groups : Nat⦄ ⦃rest : List Char⦄ ⦃r : Reader⦄
    (bound n depth : Nat) (first : Bool) (before : List Part), 2 * s.text.length + n ≤ bound →
    depth + 2 * s.height ≤ depthBound → r.On switches groups (s.text ++ rest) → rest ≠ ['\\'] →
    (s.isSingle = true ∨ EndsMark rest) →
    ∃ bound' read r', n ≤ bound' ∧ read.reverse.flatMap Part.parts = s.parts ∧
      (s.isSingle = true →
        ∃ part, read = [part] ∧ part.repeatable = .ok (Written.sequence s.parts)) ∧
      r'.On switches groups rest ∧
      readSequence bound depth false first before r =
        readSequence bound' depth false first (read ++ before) r'

section

variable {switches : Switches} {groups : Nat} {rest : List Char} {r : Reader}

/-- A readable shape is read with its further alternatives. -/
theorem Shape.Readable.alternatives {body : Shape} (hbody : body.Readable)
    {words : List (List Char)} (hwords : words.all (fun word => word.all isOrdinary) = true)
    (bound depth : Nat) (hdepth : depth ≠ 0) (hheight : depth + 1 + 2 * body.height ≤ depthBound)
    (hbound : 2 * (body.text.length + (othersText words).length) + 1 < bound)
    (h : r.On switches groups
      (body.text ++ (othersText words ++ ')' :: rest))) :
    ∃ r', r'.On switches groups (')' :: rest) ∧
      readAlternatives bound depth false r = .ok ((Shape.group body words).parts, r') := by
  rcases Nat.exists_eq_succ_of_ne_zero (Nat.ne_of_gt (Nat.zero_lt_of_lt hbound)) with ⟨b, rfl⟩
  have hends := endsMark_others words rest
  rcases hbody b 1 (depth + 1) (depth == 0) [] (by omega) hheight h hends.1 (Or.inr hends.2)
    with ⟨bound', read, r₁, hbound', hparts, -, h₁, hfirst⟩
  rcases Nat.exists_eq_succ_of_ne_zero (Nat.ne_of_gt hbound') with ⟨b', rfl⟩
  rw [List.append_nil, readSequence_stop _ _ _ _ h₁ (Or.inr (tokenAt_others words rest)), hparts]
    at hfirst
  rcases readOthers_words hwords b depth hdepth (by omega) h₁ with ⟨r', hr', hread⟩
  refine ⟨r', hr', ?_⟩
  rw [readAlternatives, if_neg (by omega), read_bind hfirst, read_bind hread]
  rfl

theorem readClose_eq (start : Nat) (hrest : rest ≠ ['\\'])
    (h : r.On switches groups (')' :: rest)) :
    ∃ r', readClose start r = .ok ((), r') ∧ r'.On switches groups rest := by
  rcases accept_hit h (by decide) hrest with ⟨r', haccept, hr'⟩
  refine ⟨r', ?_, hr'⟩
  rw [readClose, read_bind haccept]
  rfl

/-- A group around a readable shape is read to its closing bracket. -/
theorem Shape.Readable.readGroup {body : Shape} (hbody : body.Readable) {words : List (List Char)}
    (hwords : words.all (fun word => word.all isOrdinary) = true) (bound depth : Nat)
    (hheight : depth + 2 + 2 * body.height ≤ depthBound)
    (hbound : 2 * (body.text.length + (othersText words).length) + 2 < bound)
    (first : Bool) (hrest : rest ≠ ['\\'])
    (hend : body.text ++ (othersText words ++ ')' :: rest) ≠ ['\\'])
    (h : r.On switches groups
      ('?' :: ':' :: (body.text ++ (othersText words ++ ')' :: rest)))) :
    ∃ r', r'.On switches groups rest ∧ Pattern.readGroup bound depth false first r =
      .ok (some (.several (Shape.group body words).parts), r') := by
  rcases Nat.exists_eq_succ_of_ne_zero (Nat.ne_of_gt (Nat.zero_lt_of_lt hbound)) with ⟨b, rfl⟩
  rcases accept_hit h (by decide) (by simp) with ⟨r₁, haccept, h₁⟩
  rcases take_plain h₁ (by decide) hend with ⟨r₂, htake, h₂⟩
  have hkind : readKind (r.place - 1) r₁ = .ok (.plain, r₂) := by
    rw [readKind, read_bind htake]
    rfl
  rcases hbody.alternatives hwords b (depth + 1) (Nat.succ_ne_zero depth) (by omega) (by omega) h₂
    with ⟨r₃, h₃, hread⟩
  rcases readClose_eq (r.place - 1) hrest h₃ with ⟨r', hclose, hr'⟩
  refine ⟨r', hr', ?_⟩
  have hhere : here r = .ok (r.place, r) := rfl
  rw [Pattern.readGroup, read_bind hhere, read_bind haccept, if_pos rfl, read_bind hkind]
  show (readAlternatives b (depth + 1) false >>= _) r₂ = _
  rw [read_bind hread, read_bind hclose]
  rfl

/-- Words of ordinary characters are readable. -/
theorem readable_word {chars : List Char} (hchars : chars.all isOrdinary = true) :
    (Shape.word chars).Readable := by
  intro switches groups rest r bound n depth first before hbound hdepth h hrest hmark
  have hlength : bound = bound - chars.length + chars.length := by
    simp only [Shape.text] at hbound
    omega
  rcases readSequence_word hchars hrest (bound - chars.length) depth first before h
    with ⟨r', hr', hread⟩
  rw [← hlength] at hread
  refine ⟨_, _, r', ?_, flatMap_parts_one _, (fun hsingle => by cases hsingle), hr', hread⟩
  simp only [Shape.text] at hbound
  omega

/-- Escaped characters are readable. -/
theorem readable_escape {c : Char} (hc : isEscapable c = true) : (Shape.escape c).Readable := by
  intro switches groups rest r bound n depth first before hbound hdepth h hrest hmark
  simp only [Shape.text, List.length_cons, List.length_nil] at hbound
  rcases Nat.exists_eq_succ_of_ne_zero (show bound ≠ 0 by omega) with ⟨b, rfl⟩
  rcases readSequence_escaped b depth first before h hc hrest with ⟨r', hr', hread⟩
  exact ⟨b, [.one (escapedPart c)], r', by omega, rfl,
    fun _ => ⟨_, rfl, repeatable_of_isLeaf (isLeaf_escapedPart c)⟩, hr', hread⟩

/-- Sets with at least one sign are readable. -/
theorem readable_set (negative : Bool) {signs : List SetSign}
    (hsigns : ∀ sign ∈ signs, sign.isSound = true) (hsome : signs ≠ []) :
    (Shape.set negative signs).Readable := by
  intro switches groups rest r bound n depth first before hbound hdepth h hrest hmark
  simp only [Shape.text, List.length_cons] at hbound
  rcases Nat.exists_eq_succ_of_ne_zero (show bound ≠ 0 by omega) with ⟨b, rfl⟩
  have htext : (Shape.set negative signs).text ++ rest = '[' ::
      ((if negative then ['^'] else []) ++ (signs.flatMap SetSign.text ++ ']' :: rest)) := by
    simp [Shape.text]
  rw [htext] at h
  have hend : (if negative then ['^'] else []) ++ (signs.flatMap SetSign.text ++ ']' :: rest) ≠
      ['\\'] := by
    cases negative with
    | true => simp
    | false => exact (endsSign_text hsigns rest).1
  rcases readSequence_plain b depth first before h (by decide) hend with ⟨r₁, h₁, hplain, -⟩
  rcases readSet_eq hsigns hsome hrest h₁ with ⟨r', hread, hr'⟩
  have hpart : readPart before '[' r₁ = .ok (_, r') := read_bind hread
  exact ⟨b, [.one _], r', by omega, rfl,
    fun _ => ⟨_, rfl, repeatable_of_isLeaf (isLeaf_setPart _ _)⟩, hr', hplain (by decide) _ _ hpart⟩

/-- A group around a readable shape is readable. -/
theorem Shape.Readable.group {body : Shape} (hbody : body.Readable) (hsound : body.isSound = true)
    {words : List (List Char)} (hwords : words.all (fun word => word.all isOrdinary) = true) :
    (Shape.group body words).Readable := by
  intro switches groups rest r bound n depth first before hbound hdepth h hrest hmark
  simp only [Shape.text, List.length_cons, List.length_append, List.length_nil] at hbound
  simp only [Shape.height] at hdepth
  rcases Nat.exists_eq_succ_of_ne_zero (show bound ≠ 0 by omega) with ⟨b, rfl⟩
  have htext : (Shape.group body words).text ++ rest = '(' :: '?' :: ':' ::
      (body.text ++ (othersText words ++ ')' :: rest)) := by
    simp [Shape.text]
  rw [htext] at h
  have hends := endsMark_others words rest
  have hinner := (endsMark_shape hsound hends.1 hends.2).1
  rcases readSequence_plain b depth first before h (by decide) (by simp) with ⟨r₁, h₁, -, hgroup⟩
  rcases hbody.readGroup hwords b depth (by omega) (by omega) (first && before.isEmpty) hrest
    hinner h₁ with ⟨r', hr', hread⟩
  exact ⟨b, [.several _], r', by omega, List.append_nil _, fun _ => ⟨_, rfl, rfl⟩, hr',
    hgroup rfl _ _ hread⟩

/-- A single readable shape can be repeated. -/
theorem Shape.Readable.marked {body : Shape} (hbody : body.Readable)
    (hsingle : body.isSingle = true) (mark : Mark) : (Shape.marked body mark).Readable := by
  intro switches groups rest r bound n depth first before hbound hdepth h hrest hmark
  have hmark' : EndsMark rest := by
    rcases hmark with hmark | hmark
    · cases hmark
    · exact hmark
  simp only [Shape.text, List.length_append, List.length_cons, List.length_nil] at hbound
  rw [Shape.text, List.append_assoc, List.singleton_append] at h
  have hchar : mark.char ≠ '\\' ∧ mark.char ≠ '|' ∧ mark.char ≠ ')' ∧ mark.char ≠ '(' := by
    cases mark <;> decide
  -- The part is read first, and the mark then takes it back from what was read.
  rcases hbody bound (n + 2) depth first before (by omega) hdepth h (by simp [hchar.1])
    (Or.inl hsingle) with ⟨bound₁, read, r₁, hbound₁, -, hone, h₁, hread₁⟩
  rcases hone hsingle with ⟨part, rfl, hpart⟩
  rcases Nat.exists_eq_succ_of_ne_zero (show bound₁ ≠ 0 by omega) with ⟨b, rfl⟩
  rcases readSequence_plain b depth first ([part] ++ before) h₁ ⟨hchar.1, hchar.2.1, hchar.2.2.1⟩
    hrest with ⟨r', hr', hplain, -⟩
  have hw := readPart_mark hpart hr' hmark' mark before
  exact ⟨b, [.one _], r', by omega, rfl, (fun hnone => by cases hnone), hr',
    hread₁.trans (hplain hchar.2.2.2 _ _ hw)⟩

/-- Two readable shapes can follow each other. -/
theorem Shape.Readable.seq {a b : Shape} (ha : a.Readable) (hb : b.Readable)
    (hsound : b.isSound = true) : (Shape.seq a b).Readable := by
  intro switches groups rest r bound n depth first before hbound hdepth h hrest hmark
  have hmark' : EndsMark rest := by
    rcases hmark with hmark | hmark
    · cases hmark
    · exact hmark
  simp only [Shape.text, List.length_append] at hbound
  simp only [Shape.height] at hdepth
  rw [Shape.text, List.append_assoc] at h
  -- What the first shape leaves of the bound is enough for the second one.
  have hnext := endsMark_shape hsound hrest hmark'
  rcases ha bound (2 * b.text.length + n) depth first before (by omega) (by omega) h hnext.1
    (Or.inr hnext.2) with ⟨bound₁, read₁, r₁, hbound₁, hparts₁, -, h₁, hread₁⟩
  rcases hb bound₁ n depth first (read₁ ++ before) hbound₁ (by omega) h₁ hrest (Or.inr hmark')
    with ⟨bound', read₂, r', hbound', hparts₂, -, hr', hread₂⟩
  refine ⟨bound', read₂ ++ read₁, r', hbound', ?_, (fun hnone => by cases hnone), hr', ?_⟩
  · rw [List.reverse_append, List.flatMap_append, hparts₁, hparts₂]
    rfl
  · rw [List.append_assoc]
    exact hread₁.trans hread₂

/-- What is put together without a flaw is read without a flaw. -/
theorem readable_of_isSound {s : Shape} (hs : s.isSound = true) : s.Readable := by
  induction s with
  | word chars => exact readable_word hs
  | escape c => exact readable_escape hs
  | set negative signs =>
    simp only [Shape.isSound, Bool.and_eq_true, List.all_eq_true] at hs
    exact readable_set negative hs.2 (by simpa using hs.1)
  | group body words ih =>
    rw [Shape.isSound, Bool.and_eq_true] at hs
    exact (ih hs.1).group hs.1 hs.2
  | marked body mark ih =>
    rw [Shape.isSound, Bool.and_eq_true] at hs
    exact (ih hs.2).marked hs.1 mark
  | seq first second ihf ihs =>
    rw [Shape.isSound, Bool.and_eq_true] at hs
    exact (ihf hs.1).seq (ihs hs.2) hs.2

end

end JavaDeps.Pattern
