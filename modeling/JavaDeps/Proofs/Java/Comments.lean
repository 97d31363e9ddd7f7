import JavaDeps.Proofs.Java.Clauses
import JavaDeps.Proofs.Java.Clean
import Mathlib.Data.List.Infix

/-!
# Comments

A text consists of line comments, block comments, literals and other characters. Comment marks in a
literal start no comment, and quotes in a comment start no literal. Without its comments a text says
the same as long as it is tidy: no comment mark stands in a literal, no two slashes stand in the
last line of a block comment, and every comment stands apart from the clauses of the text.
-/

namespace JavaDeps.Java

open Text

/-! ## Lexemes -/

/-- A part of a source text. -/
inductive Lexeme where
  | code (c : Char)
  | literal (text : List Char)
  | lineComment (text : List Char)
  | blockComment (text : List Char)
  deriving DecidableEq, Repr

def Lexeme.text : Lexeme → List Char
  | .code c => [c]
  | .literal text | .lineComment text | .blockComment text => text

def Lexeme.kept : Lexeme → List Char
  | .code c => [c]
  | .literal text => text
  | .lineComment _ | .blockComment _ => []

/-- The text up to the closing mark of a literal. A backslash takes its meaning from the character
behind it, and only a literal with a longer mark goes on after the end of a line. -/
def throughMark? (mark : List Char) : Bool → List Char → Option (List Char)
  | _, [] => none
  | escaped, c :: rest =>
    if !escaped && mark.isPrefixOf (c :: rest) then some mark
    else if c == '\n' && mark.length == 1 then none
    else (throughMark? mark (!escaped && c == '\\') rest).map (c :: ·)

def literalMarks : List (List Char) := ["\"\"\"".toList, "\"".toList, "'".toList]

def literalAt? (text : List Char) : Option (List Char) :=
  literalMarks.findSome? fun mark =>
    if mark.isPrefixOf text then
      (throughMark? mark false (text.drop mark.length)).map (mark ++ ·)
    else none

/-- The text up to the first star that is followed by a slash, both included. -/
def throughClose : List Char → List Char
  | '*' :: '/' :: _ => ['*', '/']
  | c :: rest => c :: throughClose rest
  | [] => []

def lexemeAt (c : Char) (rest : List Char) : Lexeme :=
  if ['/', '/'].isPrefixOf (c :: rest) then .lineComment (c :: rest.takeWhile (· != '\n'))
  else if ['/', '*'].isPrefixOf (c :: rest) && closesBlock (rest.drop 1) then
    .blockComment ('/' :: '*' :: throughClose (rest.drop 1))
  else (literalAt? (c :: rest)).elim (.code c) .literal

/-- The lexemes of a text. The number counts the characters that are still to be passed over. -/
def lexemes : Nat → List Char → List Lexeme
  | _, [] => []
  | n + 1, _ :: rest => lexemes n rest
  | 0, c :: rest => lexemeAt c rest :: lexemes ((lexemeAt c rest).text.length - 1) rest

def withoutComments (text : List Char) : List Char := (lexemes 0 text).flatMap Lexeme.kept

/-! ## Reading -/

/-- What is known of the lexemes of a text. -/
inductive Lexed : List Char → List Lexeme → Prop where
  | done : Lexed [] []
  | code {c : Char} {rest : List Char} {ps : List Lexeme} :
      ['/', '/'].isPrefixOf (c :: rest) = false →
      (['/', '*'].isPrefixOf (c :: rest) = true → closesBlock (rest.drop 1) = false) →
      Lexed rest ps → Lexed (c :: rest) (.code c :: ps)
  | literal {text rest : List Char} {ps : List Lexeme} :
      text ≠ [] → text.getLast? ≠ some '/' → Lexed rest ps →
      Lexed (text ++ rest) (.literal text :: ps)
  | lineComment {body rest : List Char} {ps : List Lexeme} :
      '\n' ∉ body → (∀ x, rest.head? = some x → x = '\n') → Lexed rest ps →
      Lexed ('/' :: '/' :: body ++ rest) (.lineComment ('/' :: '/' :: body) :: ps)
  | blockComment {body rest : List Char} {ps : List Lexeme} :
      closesBlock (body ++ ['*']) = false → Lexed rest ps →
      Lexed ('/' :: '*' :: (body ++ ['*', '/']) ++ rest)
        (.blockComment ('/' :: '*' :: (body ++ ['*', '/'])) :: ps)

/-- A literal ends with its mark. -/
theorem throughMark?_eq_some {mark : List Char} {escaped : Bool} {text body : List Char}
    (h : throughMark? mark escaped text = some body) :
    ∃ inner rest, body = inner ++ mark ∧ text = body ++ rest := by
  induction text generalizing escaped body with
  | nil => cases h
  | cons c text ih =>
    rw [throughMark?] at h
    split at h
    · next hmark =>
      cases h
      rw [Bool.and_eq_true, List.isPrefixOf_iff_prefix] at hmark
      rcases hmark.2 with ⟨rest, hrest⟩
      exact ⟨[], rest, rfl, hrest.symm⟩
    · split at h
      · cases h
      · rcases Option.map_eq_some_iff.1 h with ⟨body', hbody', rfl⟩
        rcases ih hbody' with ⟨inner, rest, rfl, rfl⟩
        exact ⟨c :: inner, rest, rfl, rfl⟩

theorem literalAt?_eq_some {text body : List Char} (h : literalAt? text = some body) :
    body ≠ [] ∧ body.getLast? ≠ some '/' ∧ ∃ rest, text = body ++ rest := by
  rcases List.exists_of_findSome?_eq_some h with ⟨mark, hmark, hfound⟩
  have hlast : mark ≠ [] ∧ mark.getLast? ≠ some '/' := by
    have hmarks : ∀ mark ∈ literalMarks, mark ≠ [] ∧ mark.getLast? ≠ some '/' := by decide
    exact hmarks mark hmark
  split at hfound
  · next hprefix =>
    rcases Option.map_eq_some_iff.1 hfound with ⟨body, hbody, rfl⟩
    rcases throughMark?_eq_some hbody with ⟨inner, rest, rfl, hrest⟩
    rcases List.isPrefixOf_iff_prefix.1 hprefix with ⟨after, rfl⟩
    rw [List.drop_left] at hrest
    refine ⟨by simp [hlast.1], ?_, rest, by rw [hrest]; simp⟩
    rw [← List.append_assoc, List.getLast?_append_of_ne_nil _ hlast.1]
    exact hlast.2
  · cases hfound

/-- A block that is closed ends with its first closing mark. -/
theorem throughClose_of_closesBlock {text : List Char} (h : closesBlock text = true) :
    ∃ body rest, text = body ++ '*' :: '/' :: rest ∧ throughClose text = body ++ ['*', '/'] ∧
      closesBlock (body ++ ['*']) = false := by
  fun_induction closesBlock text with
  | case1 rest => exact ⟨[], rest, rfl, rfl, rfl⟩
  | case2 c rest hnot ih =>
    rcases ih h with ⟨body, after, rfl, hthrough, hclose⟩
    refine ⟨c :: body, after, rfl, ?_, ?_⟩
    · rw [throughClose.eq_2 _ _ hnot, hthrough]
      rfl
    · have hnot' : ∀ tail, c = '*' → body ++ ['*'] = '/' :: tail → False := by
        intro tail hc htail
        cases body with
        | nil => cases htail
        | cons d body =>
          cases htail
          exact hnot _ hc rfl
      rw [List.cons_append, closesBlock.eq_2 _ _ hnot', hclose]
  | case3 => cases h

theorem lexemes_drop (n : Nat) (text : List Char) : lexemes n text = lexemes 0 (text.drop n) := by
  induction text generalizing n with
  | nil => simp [lexemes]
  | cons c rest ih =>
    cases n with
    | zero => rfl
    | succ n => exact ih n

theorem lexed_line {body : List Char} {ps : List Lexeme}
    (h : Lexed (body.dropWhile (· != '\n')) ps) :
    Lexed ('/' :: '/' :: body) (.lineComment ('/' :: '/' :: body.takeWhile (· != '\n')) :: ps) := by
  have hline : '\n' ∉ body.takeWhile (· != '\n') := by
    intro hmem
    exact absurd (List.all_eq_true.1 List.all_takeWhile '\n' hmem) (by decide)
  have hend : ∀ x, (body.dropWhile (· != '\n')).head? = some x → x = '\n' := by
    intro x hx
    have hdrop := List.head?_dropWhile_not (· != '\n') body
    simpa [hx] using hdrop
  have hlexed := Lexed.lineComment hline hend h
  simpa using hlexed

/-- The lexeme at the start of a text is what it should be, and the text goes on behind it. -/
theorem lexed_lexemeAt (c : Char) (rest : List Char) :
    ∃ after, c :: rest = (lexemeAt c rest).text ++ after ∧ (lexemeAt c rest).text ≠ [] ∧
      ∀ ps, Lexed after ps → Lexed (c :: rest) (lexemeAt c rest :: ps) := by
  rw [lexemeAt]
  split
  · next hline =>
    rcases isPrefixOf_pair.1 hline with ⟨rfl, body, rfl⟩
    exact ⟨body.dropWhile (· != '\n'), by simp [Lexeme.text], List.cons_ne_nil _ _,
      fun ps h => lexed_line h⟩
  · next hline =>
    split
    · next hblock =>
      rcases Bool.and_eq_true_iff.1 hblock with ⟨hopen, hclose⟩
      rcases isPrefixOf_pair.1 hopen with ⟨rfl, inner, rfl⟩
      rcases throughClose_of_closesBlock hclose with ⟨body, after, hbody, hthrough, hinner⟩
      have htext : '/' :: '*' :: inner = '/' :: '*' :: (body ++ ['*', '/']) ++ after := by
        rw [show inner = body ++ '*' :: '/' :: after from hbody]
        simp
      rw [hthrough, htext]
      exact ⟨after, rfl, List.cons_ne_nil _ _, fun ps h => .blockComment hinner h⟩
    · next hblock =>
      cases hliteral : literalAt? (c :: rest) with
      | some body =>
        rcases literalAt?_eq_some hliteral with ⟨hne, hlast, after, htext⟩
        exact ⟨after, htext, hne, fun ps h => htext ▸ .literal hne hlast h⟩
      | none =>
        -- A slash and a star that no other pair closes are two characters of the code.
        refine ⟨rest, rfl, List.cons_ne_nil _ _, fun ps h => ?_⟩
        refine .code (Bool.eq_false_iff.2 hline) (fun hopen => ?_) h
        rw [hopen, Bool.true_and] at hblock
        exact Bool.eq_false_iff.2 hblock

/-- The lexemes of a text are what they should be. -/
theorem lexed_lexemes (text : List Char) : Lexed text (lexemes 0 text) := by
  -- A lexeme can have many characters, so the induction is on the length of the text.
  induction hn : text.length using Nat.strong_induction_on generalizing text with
  | _ n ih =>
    subst hn
    cases text with
    | nil => exact .done
    | cons c rest =>
      rcases lexed_lexemeAt c rest with ⟨after, htext, hne, hlexed⟩
      rcases List.exists_cons_of_ne_nil hne with ⟨d, body, hbody⟩
      rw [hbody, List.cons_append] at htext
      rcases List.cons.inj htext with ⟨rfl, rfl⟩
      have hlexemes : lexemes 0 (c :: (body ++ after)) =
          lexemeAt c (body ++ after) :: lexemes 0 after := by
        rw [lexemes, lexemes_drop, hbody, List.length_cons, Nat.add_sub_cancel, List.drop_left]
      have hshorter : after.length < (c :: (body ++ after)).length := by
        rw [List.length_cons, List.length_append]
        omega
      rw [hlexemes]
      exact hlexed _ (ih after.length hshorter after rfl)

/-- The lexemes of a text make up the text. -/
theorem Lexed.flatMap_text {text : List Char} {ps : List Lexeme} (h : Lexed text ps) :
    ps.flatMap Lexeme.text = text := by
  induction h with
  | done => rfl
  | code _ _ _ ih => simp [Lexeme.text, ih]
  | literal _ _ _ ih => simp [Lexeme.text, ih]
  | lineComment _ _ _ ih => simp [Lexeme.text, ih]
  | blockComment _ _ ih => simp [Lexeme.text, ih]

/-! ## Tidy texts -/

/-- No clause starts in a comment, and none that starts before it goes on behind it. -/
structure StandsApart (before comment after : List Char) : Prop where
  inside : ∀ text ∈ comment.tails, text ≠ [] → ∀ spot ∈ clauseSpots, spot (text ++ after) = none
  around : ∀ text ∈ before.tails, text ≠ [] → ∀ spot ∈ clauseSpots,
    spot (text ++ after) = spot text

instance (before comment after : List Char) : Decidable (StandsApart before comment after) :=
  decidable_of_iff
    ((∀ text ∈ comment.tails, text ≠ [] → ∀ spot ∈ clauseSpots, spot (text ++ after) = none) ∧
      ∀ text ∈ before.tails, text ≠ [] → ∀ spot ∈ clauseSpots, spot (text ++ after) = spot text)
    ⟨fun h => ⟨h.1, h.2⟩, fun h => ⟨h.inside, h.around⟩⟩

/-- No comment mark stands in a literal, no two slashes stand in the last line of a block comment or
at its end, and every comment stands apart. The lexemes follow the given text. -/
def Tidy (before : List Char) : List Lexeme → Prop
  | [] => True
  | .code c :: rest => Tidy (before ++ [c]) rest
  | .literal text :: rest =>
    (occursIn ['/', '/'] text = false ∧ occursIn ['/', '*'] text = false) ∧
      Tidy (before ++ text) rest
  | .lineComment text :: rest =>
    StandsApart before text (rest.flatMap Lexeme.text) ∧ Tidy before rest
  | .blockComment text :: rest =>
    occursIn ['/', '/'] (lastLine text ++ (rest.flatMap Lexeme.text).take 1) = false ∧
      StandsApart before text (rest.flatMap Lexeme.text) ∧ Tidy before rest

instance decidableTidy : (before : List Char) → (ps : List Lexeme) → Decidable (Tidy before ps)
  | _, [] => inferInstanceAs (Decidable True)
  | before, .code c :: rest => decidableTidy (before ++ [c]) rest
  | before, .literal text :: rest =>
    have := decidableTidy (before ++ text) rest
    inferInstanceAs (Decidable (_ ∧ _))
  | before, .lineComment _ :: rest =>
    have := decidableTidy before rest
    inferInstanceAs (Decidable (_ ∧ _))
  | before, .blockComment _ :: rest =>
    have := decidableTidy before rest
    inferInstanceAs (Decidable (_ ∧ _ ∧ _))

/-- No comment mark stands in a literal, and no two slashes stand in the last line of a block
comment or at its end. -/
def Untangled : List Lexeme → Prop
  | [] => True
  | .code _ :: rest | .lineComment _ :: rest => Untangled rest
  | .literal text :: rest =>
    (occursIn ['/', '/'] text = false ∧ occursIn ['/', '*'] text = false) ∧ Untangled rest
  | .blockComment text :: rest =>
    occursIn ['/', '/'] (lastLine text ++ (rest.flatMap Lexeme.text).take 1) =
      false ∧ Untangled rest

instance decidableUntangled : (ps : List Lexeme) → Decidable (Untangled ps)
  | [] => inferInstanceAs (Decidable True)
  | .code _ :: rest | .lineComment _ :: rest => decidableUntangled rest
  | .literal _ :: rest | .blockComment _ :: rest =>
    have := decidableUntangled rest
    inferInstanceAs (Decidable (_ ∧ _))

/-- Comments of a tidy text do not touch code that reads as a mark. -/
theorem Tidy.untangled {before : List Char} {ps : List Lexeme} (h : Tidy before ps) :
    Untangled ps := by
  induction ps generalizing before with
  | nil => trivial
  | cons p rest ih =>
    cases p with
    | code c => exact ih h
    | literal text => exact ⟨h.1, ih h.2⟩
    | lineComment text => exact ih h.2
    | blockComment text => exact ⟨h.1, ih h.2.2⟩

def TidyText (text : List Char) : Prop := Tidy [] (lexemes 0 text)

instance (text : List Char) : Decidable (TidyText text) := decidableTidy [] (lexemes 0 text)

/-! ## Cleaning a tidy text -/

/-- A character that opens no block comment opens none either where line comments are dropped. -/
theorem closesBlock_behind_code {c : Char} {rest : List Char}
    (hline : ['/', '/'].isPrefixOf (c :: rest) = false)
    (hblock : ['/', '*'].isPrefixOf (c :: rest) = true → closesBlock (rest.drop 1) = false)
    (hopen : ['/', '*'].isPrefixOf (c :: dropLineComments false rest) = true) :
    closesBlock ((dropLineComments false rest).drop 1) = false := by
  rcases isPrefixOf_pair.1 hopen with ⟨rfl, body, hbody⟩
  -- The star is the next character of the text itself: two slashes would be a line comment.
  cases rest with
  | nil => cases hbody
  | cons d rest =>
    have hd : ['/', '/'].isPrefixOf (d :: rest) = false := by
      rw [← Bool.not_eq_true] at hline ⊢
      intro hpair
      exact hline (isPrefixOf_pair.2 ⟨rfl, rest, by rw [(isPrefixOf_pair.1 hpair).1]⟩)
    rw [dropLineComments_cons hd] at hbody ⊢
    rcases List.cons.inj hbody with ⟨rfl, -⟩
    rw [List.drop_succ_cons, List.drop_zero, ← Bool.not_eq_true]
    intro hclose
    have hbefore : closesBlock rest = false := hblock (isPrefixOf_pair.2 ⟨rfl, rest, rfl⟩)
    rw [closesBlock_of_dropLineComments hclose] at hbefore
    cases hbefore

/-- The two passes that drop comments leave what the lexer keeps. -/
theorem Untangled.dropComments {text : List Char} {ps : List Lexeme} (huntangled : Untangled ps)
    (h : Lexed text ps) :
    dropBlockComments .outside (dropLineComments false text) = ps.flatMap Lexeme.kept := by
  induction h with
  | done => rfl
  | code hline hblock _ ih =>
    rw [dropLineComments_cons hline,
      dropBlockComments_cons (closesBlock_behind_code hline hblock), ih huntangled]
    rfl
  | @literal body rest _ _ hlast _ ih =>
    rcases huntangled with ⟨⟨hline, hblock⟩, huntangled⟩
    rw [dropLineComments_append (occursIn_pair_append hline hlast rest),
      dropBlockComments_append (occursIn_pair_append hblock hlast _), ih huntangled]
    rfl
  | lineComment hbody hend _ ih =>
    rw [dropLineComments_line hbody hend, ih huntangled]
    rfl
  | blockComment hbody hrest ih =>
    -- The first pass can shorten the lines of the comment, but not its end.
    rcases huntangled with ⟨hline, huntangled⟩
    rw [hrest.flatMap_text] at hline
    rcases dropLineComments_block hbody hline with ⟨body', hdrop, hbody'⟩
    rw [hdrop, dropBlockComments_block hbody', ih huntangled]
    rfl

/-- Cleaning a tidy text deletes its comments and empties its literals. -/
theorem clean_of_tidy {text : List Char} (h : TidyText text) :
    clean text = emptyStrings false (withoutComments text) := by
  rw [clean, h.untangled.dropComments (lexed_lexemes text), withoutComments]

/-! ## Clauses of a tidy text -/

/-- Nothing is read over a comment that stands apart. -/
theorem StandsApart.scan_eq {before body after : List Char} {spot : Spot}
    (h : StandsApart before ('/' :: body) after) (hspot : spot ∈ clauseSpots) :
    scan spot 0 (before ++ ('/' :: body ++ after)) = scan spot 0 (before ++ after) := by
  have htails : ∀ {text skipped : List Char} {c : Char} {rest : List Char},
      text = skipped ++ c :: rest → c :: rest ∈ text.tails := by
    rintro _ skipped c rest rfl
    exact (List.mem_tails _ _).2 (List.suffix_append skipped _)
  -- With the comment and without it, the text before and the text behind are scanned on their own.
  have hcomment : scan spot 0 ('/' :: body ++ after) = scan spot 0 after :=
    scan_append_of_none (fun _ c rest hsplit =>
      h.inside _ (htails hsplit) (List.cons_ne_nil c rest) spot hspot)
  have hslash : scan spot 0 (before ++ '/' :: (body ++ after)) =
      scan spot 0 before ++ scan spot 0 ('/' :: (body ++ after)) :=
    scan_append (fun _ c rest _ =>
      ⟨spot_append_slash hspot (c :: rest) _, fun _ _ hfound => spot_length_le hspot hfound⟩)
  have hjoined : scan spot 0 (before ++ after) = scan spot 0 before ++ scan spot 0 after :=
    scan_append (fun _ c rest hsplit =>
      ⟨h.around _ (htails hsplit) (List.cons_ne_nil c rest) spot hspot,
        fun _ _ hfound => spot_length_le hspot hfound⟩)
  rw [List.cons_append] at hcomment ⊢
  rw [hslash, hcomment, hjoined]

/-- In a tidy text nothing is read in a comment. -/
theorem scan_of_tidy {text before : List Char} {ps : List Lexeme} (h : Lexed text ps)
    (htidy : Tidy before ps) {spot : Spot} (hspot : spot ∈ clauseSpots) :
    scan spot 0 (before ++ text) = scan spot 0 (before ++ ps.flatMap Lexeme.kept) := by
  induction h generalizing before with
  | done => rfl
  | @code c rest ps _ _ _ ih =>
    have hrest := ih htidy
    simpa [Lexeme.kept] using hrest
  | literal _ _ _ ih =>
    have hrest := ih htidy.2
    simpa [Lexeme.kept] using hrest
  | lineComment _ _ hrest ih =>
    rcases htidy with ⟨hapart, htidy⟩
    rw [hrest.flatMap_text] at hapart
    exact (hapart.scan_eq hspot).trans (ih htidy)
  | blockComment _ hrest ih =>
    rcases htidy with ⟨-, hapart, htidy⟩
    rw [hrest.flatMap_text] at hapart
    exact (hapart.scan_eq hspot).trans (ih htidy)

/-- Types, imports and the package of a tidy text are those of its code. -/
theorem clauses_of_tidy {text : List Char} (h : TidyText text) :
    declaredTypes text = declaredTypes (withoutComments text) ∧
      importedNames text = importedNames (withoutComments text) ∧
      packageName? text = packageName? (withoutComments text) :=
  clauses_congr (fun _ hspot => scan_of_tidy (lexed_lexemes text) h hspot)

end JavaDeps.Java
