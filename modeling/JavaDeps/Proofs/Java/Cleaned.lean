import JavaDeps.Proofs.Java.Comments

/-!
# Cleaned text

Cleaning takes three passes, and what a pass drops brings together what stood on both sides of it.
No comment comes about in this way: where a block comment is dropped no slash stands next to it, and
an emptied literal keeps its quotes. So a cleaned text has nothing left to clean.
-/

namespace JavaDeps.Java

open Text

/-! ## Pairs of characters -/

theorem pair_infix_cons {a b c : Char} {rest : List Char} :
    [a, b] <:+: c :: rest ↔ (c = a ∧ rest.head? = some b) ∨ [a, b] <:+: rest := by
  rw [List.infix_cons_iff, List.cons_prefix_cons, eq_comm]
  refine or_congr_left (and_congr_right (fun _ => ?_))
  cases rest <;> simp [List.cons_prefix_cons, eq_comm]

theorem closesBlock_iff {text : List Char} : closesBlock text = true ↔ ['*', '/'] <:+: text := by
  rw [closesBlock_eq, occursIn_iff]

/-- A block comment: a slash and a star, and somewhere behind them a star and a slash. -/
def HasBlock (text : List Char) : Prop :=
  ∃ before after, text = before ++ '/' :: '*' :: after ∧ ['*', '/'] <:+: after

theorem hasBlock_cons {c : Char} {rest : List Char} :
    HasBlock (c :: rest) ↔
      (c = '/' ∧ ∃ after, rest = '*' :: after ∧ ['*', '/'] <:+: after) ∨ HasBlock rest := by
  constructor
  · rintro ⟨before, after, htext, hclose⟩
    cases before with
    | nil =>
      rcases List.cons.inj htext with ⟨rfl, rfl⟩
      exact Or.inl ⟨rfl, after, rfl, hclose⟩
    | cons d before =>
      rcases List.cons.inj htext with ⟨rfl, rfl⟩
      exact Or.inr ⟨before, after, rfl, hclose⟩
  · rintro (⟨rfl, after, rfl, hclose⟩ | ⟨before, after, rfl, hclose⟩)
    · exact ⟨[], after, rfl, hclose⟩
    · exact ⟨c :: before, after, rfl, hclose⟩

theorem HasBlock.append_left {rest : List Char} (h : HasBlock rest) (front : List Char) :
    HasBlock (front ++ rest) := by
  rcases h with ⟨before, after, rfl, hclose⟩
  exact ⟨front ++ before, after, by simp, hclose⟩

/-! ## Line comments -/

/-- Deleting line comments only leaves out characters. -/
theorem dropLineComments_sublist (inside : Bool) (text : List Char) :
    (dropLineComments inside text).Sublist text := by
  fun_induction dropLineComments inside text with
  | case1 => exact .slnil
  | case2 c rest _ ih => exact ih.cons_cons c
  | case3 c rest _ ih => exact ih.cons c
  | case4 rest ih => exact ih.cons '/'
  | case5 c rest _ ih => exact ih.cons_cons c

/-- No pair of slashes is left. -/
theorem not_line_dropLineComments (inside : Bool) (text : List Char) :
    ¬ ['/', '/'] <:+: dropLineComments inside text := by
  fun_induction dropLineComments inside text with
  | case1 => simp
  | case2 c rest hc ih =>
    rw [pair_infix_cons, not_or]
    refine ⟨fun hpair => ?_, ih⟩
    rw [beq_iff_eq.1 hc] at hpair
    exact absurd hpair.1 (by decide)
  | case3 c rest _ ih => exact ih
  | case4 rest ih => exact ih
  | case5 c rest hnot ih =>
    rw [pair_infix_cons, not_or]
    refine ⟨fun hpair => ?_, ih⟩
    rcases head?_dropLineComments hpair.2 with hslash | hhead
    · cases hslash
    · rcases List.head?_eq_some_iff.1 hhead with ⟨body, hbody⟩
      exact hnot body hpair.1 hbody

/-- Where there is no pair of slashes, nothing is deleted. -/
theorem dropLineComments_of_not_line {text : List Char} (h : ¬ ['/', '/'] <:+: text) :
    dropLineComments false text = text := by
  have hnone : occursIn ['/', '/'] (text ++ [].take 1) = false := by
    rw [List.take_nil, List.append_nil, ← Bool.not_eq_true, occursIn_iff]
    exact h
  simpa [dropLineComments] using dropLineComments_append hnone

/-! ## Block comments -/

/-- The second text is the first one without its block comments. -/
inductive Unblocked : List Char → List Char → Prop where
  | done : Unblocked [] []
  | keep {c : Char} {rest kept : List Char} :
      (['/', '*'].isPrefixOf (c :: rest) = true → closesBlock (rest.drop 1) = false) →
      Unblocked rest kept → Unblocked (c :: rest) (c :: kept)
  | block {body rest kept : List Char} : Unblocked rest kept →
      Unblocked ('/' :: '*' :: (body ++ ['*', '/']) ++ rest) kept

/-- Blocks are deleted one by one. -/
theorem unblocked_dropBlockComments (text : List Char) :
    Unblocked text (dropBlockComments .outside text) := by
  induction hn : text.length using Nat.strong_induction_on generalizing text with
  | _ n ih =>
    subst hn
    cases text with
    | nil => exact .done
    | cons c rest =>
      by_cases hblock : ['/', '*'].isPrefixOf (c :: rest) = true ∧ closesBlock (rest.drop 1) = true
      · rcases isPrefixOf_pair.1 hblock.1 with ⟨rfl, inner, rfl⟩
        rcases throughClose_of_closesBlock hblock.2 with ⟨body, after, hbody, -, hclose⟩
        have htext : '/' :: '*' :: inner = '/' :: '*' :: (body ++ ['*', '/']) ++ after := by
          rw [show inner = body ++ '*' :: '/' :: after from hbody]
          simp
        have hshorter : after.length < ('/' :: '*' :: inner).length := by
          rw [htext]
          simp
          omega
        rw [htext, dropBlockComments_block hclose]
        exact .block (ih _ hshorter after rfl)
      · have hopen : ['/', '*'].isPrefixOf (c :: rest) = true → closesBlock (rest.drop 1) = false :=
          fun hpair => Bool.eq_false_iff.2 (fun hclose => hblock ⟨hpair, hclose⟩)
        rw [dropBlockComments_cons hopen]
        exact .keep hopen (ih _ (Nat.lt_succ_self _) rest rfl)

namespace Unblocked

variable {text kept : List Char}

theorem sublist (h : Unblocked text kept) : kept.Sublist text := by
  induction h with
  | done => exact .slnil
  | keep _ _ ih => exact ih.cons_cons _
  | block _ ih => exact ih.trans (List.sublist_append_right _ _)

/-- A slash behind a dropped comment stands where the comment itself starts with one. -/
theorem head?_slash (h : Unblocked text kept) (hslash : kept.head? = some '/') :
    text.head? = some '/' := by
  cases h with
  | done => exact hslash
  | keep => exact hslash
  | block => rfl

/-- A slash behind another character was there before, behind the same one. -/
theorem slash_pair (h : Unblocked text kept) {a : Char} (hpair : [a, '/'] <:+: kept) :
    [a, '/'] <:+: text := by
  induction h with
  | done => exact hpair
  | keep _ hrest ih =>
    rw [pair_infix_cons] at hpair ⊢
    exact hpair.imp (fun hpair => ⟨hpair.1, hrest.head?_slash hpair.2⟩) ih
  | block _ ih => exact (ih hpair).trans (List.suffix_append _ _).isInfix

/-- Where no line comment is left, no block comment comes about. -/
theorem not_hasBlock (h : Unblocked text kept) (hline : ¬ ['/', '/'] <:+: text) :
    ¬ HasBlock kept := by
  induction h with
  | done => rintro ⟨_ | _, after, htext, -⟩ <;> cases htext
  | @keep c rest kept hopen hrest ih =>
    rw [pair_infix_cons, not_or] at hline
    rw [hasBlock_cons, not_or]
    refine ⟨?_, ih hline.2⟩
    rintro ⟨rfl, after, rfl, hclose⟩
    -- The star is the next character of the text: a comment there would make two slashes.
    cases hrest with
    | keep _ hafter =>
      have hnone := hopen (isPrefixOf_pair.2 ⟨rfl, _, rfl⟩)
      rw [List.drop_succ_cons, List.drop_zero, ← Bool.not_eq_true, closesBlock_iff] at hnone
      exact hnone (hafter.slash_pair hclose)
    | block => exact hline.1 ⟨rfl, rfl⟩
  | block _ ih => exact ih (fun hpair => hline (hpair.trans (List.suffix_append _ _).isInfix))

end Unblocked

/-- Where no block is closed, nothing is deleted. -/
theorem dropBlockComments_of_not_hasBlock {text : List Char} (h : ¬ HasBlock text) :
    dropBlockComments .outside text = text := by
  induction text with
  | nil => rfl
  | cons c rest ih =>
    rw [hasBlock_cons, not_or] at h
    rw [dropBlockComments_cons (fun hpair => ?_), ih h.2]
    rcases isPrefixOf_pair.1 hpair with ⟨rfl, after, rfl⟩
    rw [List.drop_succ_cons, List.drop_zero, ← Bool.not_eq_true, closesBlock_iff]
    exact fun hclose => h.1 ⟨rfl, after, rfl, hclose⟩

/-! ## String literals -/

theorem emptyStrings_append_of_not_mem {text : List Char} (h : '"' ∉ text) (rest : List Char) :
    emptyStrings false (text ++ rest) = text ++ emptyStrings false rest := by
  induction text with
  | nil => rfl
  | cons c text ih =>
    rw [List.mem_cons, not_or] at h
    have hc : (c == '"') = false := beq_eq_false_iff_ne.2 (Ne.symm h.1)
    simp [emptyStrings, hc, ih h.2]

/-- What stands between two quotes is deleted. -/
theorem emptyStrings_literal {body : List Char} (hbody : '"' ∉ body) (rest : List Char) :
    emptyStrings false ('"' :: (body ++ '"' :: rest)) = '"' :: '"' :: emptyStrings false rest := by
  have hinside : emptyStrings true (body ++ '"' :: rest) = emptyStrings false rest := by
    induction body with
    | nil => rfl
    | cons c body ih =>
      rw [List.mem_cons, not_or] at hbody
      have hc : (c == '"') = false := beq_eq_false_iff_ne.2 (Ne.symm hbody.1)
      simpa [emptyStrings, hc] using ih hbody.2
  simp [emptyStrings, hinside]

/-- The second text is the first one without what stands between quotes. -/
inductive Emptied : List Char → List Char → Prop where
  | done : Emptied [] []
  | keep {c : Char} {rest kept : List Char} : (c = '"' → '"' ∉ rest) → Emptied rest kept →
      Emptied (c :: rest) (c :: kept)
  | literal {body rest kept : List Char} : Emptied rest kept →
      Emptied ('"' :: (body ++ '"' :: rest)) ('"' :: '"' :: kept)

/-- Literals are emptied one by one. -/
theorem emptied_emptyStrings (text : List Char) : Emptied text (emptyStrings false text) := by
  induction hn : text.length using Nat.strong_induction_on generalizing text with
  | _ n ih =>
    subst hn
    cases text with
    | nil => exact .done
    | cons c rest =>
      by_cases hquote : c = '"' ∧ '"' ∈ rest
      · rcases hquote with ⟨rfl, hmem⟩
        rcases List.eq_append_cons_of_mem hmem with ⟨body, after, rfl, hbody⟩
        rw [emptyStrings_literal hbody]
        exact .literal (ih _ (by simp; omega) after rfl)
      · have hlast : c = '"' → '"' ∉ rest := fun hc hmem => hquote ⟨hc, hmem⟩
        have hkept : (c == '"' && rest.contains '"') = false := by simpa using hlast
        rw [emptyStrings, hkept]
        exact .keep hlast (ih _ (Nat.lt_succ_self _) rest rfl)

/-- Double quotes stand in pairs, one right behind the other. The last one may stand alone. -/
inductive QuotesPaired : List Char → Prop where
  | done : QuotesPaired []
  | other {c : Char} {rest : List Char} : c ≠ '"' → QuotesPaired rest → QuotesPaired (c :: rest)
  | pair {rest : List Char} : QuotesPaired rest → QuotesPaired ('"' :: '"' :: rest)
  | last {rest : List Char} : '"' ∉ rest → QuotesPaired ('"' :: rest)

namespace Emptied

variable {text kept : List Char}

theorem sublist (h : Emptied text kept) : kept.Sublist text := by
  induction h with
  | done => exact .slnil
  | keep _ _ ih => exact ih.cons_cons _
  | literal _ ih => exact ((ih.cons_cons '"').trans (List.sublist_append_right _ _)).cons_cons '"'

theorem head?_eq (h : Emptied text kept) : kept.head? = text.head? := by
  cases h <;> rfl

/-- A pair of characters, of which the first is no quote, was there before. -/
theorem pair (h : Emptied text kept) {a b : Char} (ha : a ≠ '"') (hpair : [a, b] <:+: kept) :
    [a, b] <:+: text := by
  induction h with
  | done => exact hpair
  | keep _ hrest ih =>
    rw [pair_infix_cons] at hpair ⊢
    rw [← hrest.head?_eq]
    exact hpair.imp_right ih
  | @literal body rest _ _ ih =>
    rw [pair_infix_cons, pair_infix_cons] at hpair
    have hrest :=
      ih ((hpair.resolve_left (fun h => ha h.1.symm)).resolve_left (fun h => ha h.1.symm))
    exact hrest.trans ⟨'"' :: (body ++ ['"']), [], by simp⟩

theorem hasBlock (h : Emptied text kept) (hblock : HasBlock kept) : HasBlock text := by
  induction h with
  | done => exact hblock
  | keep _ hrest ih =>
    rw [hasBlock_cons] at hblock ⊢
    refine hblock.imp ?_ ih
    rintro ⟨rfl, after, rfl, hclose⟩
    cases hrest with
    | keep _ hafter => exact ⟨rfl, _, rfl, hafter.pair (by decide) hclose⟩
  | @literal body rest _ _ ih =>
    rw [hasBlock_cons, hasBlock_cons] at hblock
    have hrest := ih ((hblock.resolve_left (fun h => absurd h.1 (by decide))).resolve_left
      (fun h => absurd h.1 (by decide)))
    simpa using hrest.append_left ('"' :: (body ++ ['"']))

/-- Afterwards the quotes stand in pairs. -/
theorem quotesPaired (h : Emptied text kept) : QuotesPaired kept := by
  induction h with
  | done => exact .done
  | @keep c rest _ hlast hrest ih =>
    by_cases hc : c = '"'
    · subst hc
      exact .last (fun hmem => hlast rfl (hrest.sublist.subset hmem))
    · exact .other hc ih
  | literal _ ih => exact .pair ih

end Emptied

/-- Where the quotes stand in pairs, nothing is deleted. -/
theorem QuotesPaired.emptyStrings_eq {text : List Char} (h : QuotesPaired text) :
    emptyStrings false text = text := by
  induction h with
  | done => rfl
  | other hc _ ih => simp [emptyStrings, hc, ih]
  | @pair rest _ ih =>
    have hpair := emptyStrings_literal List.not_mem_nil rest
    rwa [List.nil_append, ih] at hpair
  | @last rest hrest =>
    have hkept := emptyStrings_append_of_not_mem hrest []
    rw [List.append_nil] at hkept
    simp [emptyStrings, hrest, hkept]

/-! ## All passes -/

/-- Cleaning leaves a part of a text, in its order. Neither a line comment nor a block comment is
left, and quotes stand in pairs, so that cleaning it again changes nothing. -/
theorem clean_normal_form (text : List Char) :
    (clean text).Sublist text ∧ ¬ ['/', '/'] <:+: clean text ∧ ¬ HasBlock (clean text) ∧
      QuotesPaired (clean text) ∧ clean (clean text) = clean text := by
  have hunblocked := unblocked_dropBlockComments (dropLineComments false text)
  have hemptied := emptied_emptyStrings (dropBlockComments .outside (dropLineComments false text))
  have hline : ¬ ['/', '/'] <:+: clean text := fun hpair =>
    not_line_dropLineComments false text (hunblocked.slash_pair (hemptied.pair (by decide) hpair))
  have hblock : ¬ HasBlock (clean text) := fun hhas =>
    hunblocked.not_hasBlock (not_line_dropLineComments false text) (hemptied.hasBlock hhas)
  have hquotes : QuotesPaired (clean text) := hemptied.quotesPaired
  refine ⟨hemptied.sublist.trans (hunblocked.sublist.trans (dropLineComments_sublist false text)),
    hline, hblock, hquotes, ?_⟩
  calc clean (clean text)
      = emptyStrings false (dropBlockComments .outside (clean text)) := by
        rw [clean, dropLineComments_of_not_line hline]
    _ = emptyStrings false (clean text) := by rw [dropBlockComments_of_not_hasBlock hblock]
    _ = clean text := hquotes.emptyStrings_eq

/-! ## Cleaning and reading -/

/-- What is left of a lexeme where comments are dropped and string literals are emptied. -/
def Lexeme.bare : Lexeme → List Char
  | .code c => [c]
  | .literal text => if text.head? = some '"' then ['"', '"'] else text
  | .lineComment _ | .blockComment _ => []

/-- A double quote stands at the start and at the end of a string literal, and nowhere else. -/
def Lexeme.quotesOnlyEnds : Lexeme → Bool
  | .code c => c != '"'
  | .literal text => !text.contains '"'
    || (text.head? == some '"' && text.getLast? == some '"' && text.count '"' == 2)
  | .lineComment _ | .blockComment _ => true

theorem eq_quoted {text : List Char} (hhead : text.head? = some '"')
    (hlast : text.getLast? = some '"')
    (hcount : text.count '"' = 2) : ∃ body, '"' ∉ body ∧ text = '"' :: (body ++ ['"']) := by
  rcases List.head?_eq_some_iff.1 hhead with ⟨rest, rfl⟩
  rw [List.count_cons_self] at hcount
  have hne : rest ≠ [] := by
    rintro rfl
    simp at hcount
  rw [List.getLast?_cons_of_ne_nil hne] at hlast
  rcases List.getLast?_eq_some_iff.1 hlast with ⟨body, rfl⟩
  rw [List.count_append, List.count_singleton_self] at hcount
  exact ⟨body, List.count_eq_zero.1 (by omega), rfl⟩

/-- Literals with quotes at their ends only are emptied, and all else is kept. -/
theorem emptyStrings_kept {ps : List Lexeme} (h : ∀ p ∈ ps, p.quotesOnlyEnds = true) :
    emptyStrings false (ps.flatMap Lexeme.kept) = ps.flatMap Lexeme.bare := by
  induction ps with
  | nil => rfl
  | cons p rest ih =>
    rcases List.forall_mem_cons.1 h with ⟨hp, hrest⟩
    rw [List.flatMap_cons, List.flatMap_cons]
    cases p with
    | code c =>
      have hc : '"' ∉ [c] := by
        rw [List.mem_singleton]
        exact (bne_iff_ne.1 hp).symm
      rw [Lexeme.kept, emptyStrings_append_of_not_mem hc, ih hrest]
      rfl
    | lineComment text => exact ih hrest
    | blockComment text => exact ih hrest
    | literal text =>
      rw [Lexeme.kept]
      rcases Bool.or_eq_true_iff.1 hp with hnone | hends
      · have hnone : '"' ∉ text := by simpa using hnone
        have hhead : text.head? ≠ some '"' := fun hhead => hnone (List.mem_of_head? hhead)
        rw [emptyStrings_append_of_not_mem hnone, ih hrest, Lexeme.bare, if_neg hhead]
      · simp only [Bool.and_eq_true, beq_iff_eq] at hends
        rcases eq_quoted hends.1.1 hends.1.2 hends.2 with ⟨body, hbody, rfl⟩
        rw [List.cons_append, List.append_assoc, List.singleton_append, emptyStrings_literal hbody,
          ih hrest]
        rfl

/-- If comment marks stand in no literal and end no block comment early, and quotes stand only where
a string literal starts and ends, cleaning drops the comments and empties the string literals.
Everything else is still there, in one piece where it was in one piece. -/
theorem clean_eq_bare (text : List Char) (hmarks : Untangled (lexemes 0 text))
    (hquotes : ∀ p ∈ lexemes 0 text, p.quotesOnlyEnds = true) :
    clean text = (lexemes 0 text).flatMap Lexeme.bare ∧
      ∀ before code after, lexemes 0 text = before ++ code.map .code ++ after →
        code <:+: clean text := by
  have hclean : clean text = (lexemes 0 text).flatMap Lexeme.bare := by
    rw [clean, hmarks.dropComments (lexed_lexemes text), emptyStrings_kept hquotes]
  refine ⟨hclean, fun before code after hlexemes => ?_⟩
  have hcode : (code.map Lexeme.code).flatMap Lexeme.bare = code := by
    simp [List.flatMap_map, Lexeme.bare]
  rw [hclean, hlexemes, List.flatMap_append, List.flatMap_append, hcode]
  exact ⟨_, _, rfl⟩

/-- A text with quotes in a comment, a comment without code, and literals of both kinds. -/
def remarkedCalls : List Char := "B.m(\"x\"); // not \"y\"\n/* z */ C.n('c');".toList

theorem remarkedCalls_bare :
    Untangled (lexemes 0 remarkedCalls) ∧ (∀ p ∈ lexemes 0 remarkedCalls, p.quotesOnlyEnds = true) ∧
      clean remarkedCalls = "B.m(\"\"); \n C.n('c');".toList := by
  have hmarks : Untangled (lexemes 0 remarkedCalls) := by decide +kernel
  have hquotes : ∀ p ∈ lexemes 0 remarkedCalls, p.quotesOnlyEnds = true := by decide +kernel
  refine ⟨hmarks, hquotes, (clean_eq_bare remarkedCalls hmarks hquotes).1.trans ?_⟩
  decide +kernel

/-- Two slashes in a string literal are taken for a comment, and a call behind the literal is lost.
-/
theorem call_lost_behind_slashes :
    Lexeme.code '"' ∉ lexemes 0 "String s = \"http://x\"; B.m();".toList ∧
      (lexemes 0 "String s = \"http://x\"; B.m();".toList).flatMap Lexeme.bare =
        "String s = \"\"; B.m();".toList ∧
      clean "String s = \"http://x\"; B.m();".toList = "String s = \"http:".toList := by
  decide +kernel

end JavaDeps.Java
