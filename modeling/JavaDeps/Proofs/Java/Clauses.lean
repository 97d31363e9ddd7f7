import JavaDeps.Proofs.Java.Declarations
import JavaDeps.Proofs.Pattern.Scan

/-!
# Clauses

The declarations, the imports and the package of a text are found by looking for a word, blanks and
a name. What is found at a place can be told without the patterns, from the text behind the place.
-/

namespace JavaDeps.Java

open Pattern

/-! ## A word and a name -/

/-- A word, blanks and a name at the start of a text: the name, and what follows it. -/
def wordName? (word : List Char) (first more : Char → Bool) (text : List Char) :
    Option (List Char × List Char) :=
  if word.isPrefixOf text && !((text.drop word.length).takeWhile Text.isBlank).isEmpty then
    match (text.drop word.length).dropWhile Text.isBlank with
    | [] => none
    | c :: body => if first c then some (c :: body.takeWhile more, body.dropWhile more) else none
  else none

def IsWordName (word : List Char) (first more : Char → Bool) (piece name : List Char) : Prop :=
  ∃ gap x body, piece = word ++ (gap ++ name) ∧ name = x :: body ∧ gap ≠ [] ∧
    (∀ y ∈ gap, Text.isBlank y = true) ∧ first x = true ∧ ∀ y ∈ body, more y = true

/-- Characters of a kind are taken up to the first one of another kind. -/
theorem takeWhile_append_stop {accepts : Char → Bool} {body rest : List Char}
    (hbody : ∀ y ∈ body, accepts y = true) (hrest : ∀ x, rest.head? = some x → accepts x = false) :
    (body ++ rest).takeWhile accepts = body ∧ (body ++ rest).dropWhile accepts = rest := by
  have hstop : rest.takeWhile accepts = [] ∧ rest.dropWhile accepts = rest := by
    cases rest with
    | nil => exact ⟨rfl, rfl⟩
    | cons x rest => simp [hrest x rfl]
  rw [List.takeWhile_append_of_pos hbody, List.dropWhile_append_of_pos hbody, hstop.1, hstop.2]
  exact ⟨List.append_nil body, rfl⟩

/-- A word with a name behind it is read to the end of the name. -/
theorem wordName?_eq_some_iff {word : List Char} {first more : Char → Bool}
    (hfirst : ∀ x, first x = true → Text.isBlank x = false) {text name rest : List Char} :
    wordName? word first more text = some (name, rest) ↔ ∃ piece, text = piece ++ rest ∧
      IsWordName word first more piece name ∧ ∀ x, rest.head? = some x → more x = false := by
  constructor
  · intro h
    unfold wordName? at h
    split at h
    · next hword =>
      rw [Bool.and_eq_true, List.isPrefixOf_iff_prefix] at hword
      rcases hword with ⟨⟨after, rfl⟩, hgap⟩
      rw [List.drop_left] at h hgap
      split at h
      · cases h
      · next x body hbody =>
        split at h
        · next hx =>
          cases h
          have hafter : after = after.takeWhile Text.isBlank ++ x :: body := by
            rw [← hbody, List.takeWhile_append_dropWhile]
          refine ⟨word ++ (after.takeWhile Text.isBlank ++ x :: body.takeWhile more), ?_,
            ⟨after.takeWhile Text.isBlank, x, body.takeWhile more, rfl, rfl, ?_, ?_, hx, ?_⟩, ?_⟩
          · conv => lhs; rw [hafter]
            simp
          · simpa using hgap
          · exact List.all_eq_true.1 List.all_takeWhile
          · exact List.all_eq_true.1 List.all_takeWhile
          · intro y hy
            have hdrop := List.head?_dropWhile_not more body
            simpa [hy] using hdrop
        · cases h
    · cases h
  · rintro ⟨_, rfl, ⟨gap, x, body, rfl, rfl, hne, hgap, hx, hbody⟩, hrest⟩
    have htext : word ++ (gap ++ x :: body) ++ rest = word ++
        (gap ++ (x :: (body ++ rest))) := by simp
    have hword : word.isPrefixOf (word ++ (gap ++ (x :: (body ++ rest)))) = true :=
      List.isPrefixOf_iff_prefix.2 (List.prefix_append _ _)
    -- The blanks end where the name starts, and the name ends where no more of it follows.
    have hstart : ∀ y, (x :: (body ++ rest)).head? = some y → Text.isBlank y = false :=
      test_of_head?_cons (hfirst x hx)
    have hblanks := takeWhile_append_stop hgap hstart
    have hname := takeWhile_append_stop hbody hrest
    rw [htext, wordName?, List.drop_left, hblanks.1, hblanks.2, hword]
    simp [hne, hx, hname.1, hname.2]

/-! ## Declarations -/

def typeWords : List (List Char) := ["class".toList, "interface".toList, "enum".toList]

def bareDeclaration : Pattern :=
  .oneOf [.literal "class", .literal "interface", .literal "enum"] ++ .blanks1 ++ .group 1 typeName

def typeSpot : Spot := fun text =>
  (typeWords.findSome? (fun word => wordName? word isCapital isNameChar text)).map
    (fun found => (String.ofList found.1, text.length - found.2.length))

theorem not_isBlank_of_isCapital {c : Char} (h : isCapital c = true) : Text.isBlank c = false :=
  not_isBlank_of_isNameChar (isNameChar_of_isCapital h)

theorem reads_typeWord {text : List Char} :
    (Pattern.oneOf [.literal "class", .literal "interface", .literal "enum"]).Reads text ↔
      text ∈ typeWords := by
  simp [Pattern.oneOf, Reads, typeWords]

/-- A declaration of a type is one of three words, blanks and a name. -/
theorem bareDeclaration_matches {piece : List Char} {groups : List (Nat × List Char)} :
    bareDeclaration.Matches piece groups ↔ ∃ word ∈ typeWords, ∃ name,
      IsWordName word isCapital isNameChar piece name ∧ groups = [(1, name)] := by
  constructor
  · intro h
    rcases matches_plain_append rfl h with ⟨_, name, rfl, ⟨word, gap, rfl, hword, hgap⟩, rfl, hname⟩
    rcases reads_name.1 hname with ⟨x, body, rfl, hx, hbody⟩
    rcases reads_many1.1 hgap with ⟨hgap, hne⟩
    exact ⟨word, reads_typeWord.1 hword, x :: body,
      ⟨gap, x, body, by simp, rfl, hne, hgap, hx, hbody⟩, rfl⟩
  · rintro ⟨word, hword, _, ⟨gap, x, body, rfl, rfl, hne, hgap, hx, hbody⟩, rfl⟩
    refine ⟨word ++ gap, x :: body, [], [(1, x :: body)], by simp, rfl, ?_, rfl, ?_⟩
    · exact (matches_plain rfl).2
        ⟨rfl, word, gap, rfl, reads_typeWord.2 hword, reads_many1.2 ⟨hgap, hne⟩⟩
    · exact reads_name.2 ⟨x, body, rfl, hx, hbody⟩

/-- Only one word can stand at the start of a declaration. -/
theorem typeWord_unique {word word' : List Char} (hword : word ∈ typeWords)
    (hword' : word' ∈ typeWords)
    {rest rest' : List Char} (h : word ++ rest = word' ++ rest') : word = word' := by
  have hne : ∀ w ∈ typeWords, w ≠ [] := by decide
  have hheads : ∀ w ∈ typeWords, ∀ w' ∈ typeWords, w.head? = w'.head? → w = w' := by decide
  refine hheads word hword word' hword' ?_
  rcases List.exists_cons_of_ne_nil (hne word hword) with ⟨x, more, rfl⟩
  rcases List.exists_cons_of_ne_nil (hne word' hword') with ⟨x', more', rfl⟩
  exact congrArg some (List.cons.inj h).1

theorem findSome?_wordName? {word text : List Char} {found : List Char × List Char}
    (hword : word ∈ typeWords) (h : wordName? word isCapital isNameChar text = some found) :
    typeWords.findSome? (fun word => wordName? word isCapital isNameChar text) = some found := by
  cases hfirst : typeWords.findSome? (fun word => wordName? word isCapital isNameChar text) with
  | none =>
    rw [List.findSome?_eq_none_iff] at hfirst
    rw [hfirst word hword] at h
    cases h
  | some found' =>
    -- A word that is found earlier stands at the start of the text as well, so it is the same one.
    rcases List.exists_of_findSome?_eq_some hfirst with ⟨word', hword', h'⟩
    rcases (wordName?_eq_some_iff (fun _ => not_isBlank_of_isCapital)).1 h with
      ⟨_, hpiece, ⟨gap, _, _, rfl, -⟩, -⟩
    rcases (wordName?_eq_some_iff (fun _ => not_isBlank_of_isCapital)).1 h' with
      ⟨_, hpiece', ⟨gap', _, _, rfl, -⟩, -⟩
    have hsame : word = word' := by
      rw [hpiece, List.append_assoc, List.append_assoc word'] at hpiece'
      exact typeWord_unique hword hword' hpiece'
    subst hsame
    exact h'.symm.trans h

/-- At a place a type is read if a declaration starts there, with its whole name. -/
theorem typeSpot_eq_some_iff {text : List Char} {name : String} {n : Nat} :
    typeSpot text = some (name, n) ↔ ∃ piece rest, text = piece ++ rest ∧
      (∀ x, rest.head? = some x → isNameChar x = false) ∧
      bareDeclaration.Matches piece [(1, name.toList)] ∧ n = piece.length := by
  constructor
  · intro h
    rcases Option.map_eq_some_iff.1 h with ⟨⟨found, rest⟩, hfound, heq⟩
    cases heq
    rcases List.exists_of_findSome?_eq_some hfound with ⟨word, hword, hname⟩
    rcases (wordName?_eq_some_iff (fun _ => not_isBlank_of_isCapital)).1 hname with
      ⟨piece, rfl, hpiece, hrest⟩
    refine ⟨piece, rest, rfl, hrest, ?_, by simp⟩
    rw [String.toList_ofList]
    exact bareDeclaration_matches.2 ⟨word, hword, found, hpiece, rfl⟩
  · rintro ⟨piece, rest, rfl, hrest, hmatch, rfl⟩
    rcases bareDeclaration_matches.1 hmatch with ⟨word, hword, found, hpiece, hgroups⟩
    cases hgroups
    have hname : wordName? word isCapital isNameChar (piece ++ rest) = some (name.toList, rest) :=
      (wordName?_eq_some_iff (fun _ => not_isBlank_of_isCapital)).2 ⟨piece, rfl, hpiece, hrest⟩
    rw [typeSpot, findSome?_wordName? hword hname]
    simp

theorem spots_bareDeclaration : bareDeclaration.Spots typeSpot := by
  have hstraight : bareDeclaration.straight? 0 = some 1 := rfl
  refine Spots.of_matches hstraight rfl (fun hmarks hrun => ?_) (fun hmatch => ?_)
    typeSpot_eq_some_iff
  · exact run_append_name_stops rfl (by decide) hmarks hrun
  · rcases bareDeclaration_matches.1 hmatch with ⟨_, _, name, ⟨gap, x, body, rfl, rfl, -⟩, rfl⟩
    exact ⟨by simp, _, rfl⟩

theorem typeSpot_eq_none {text : List Char} (h : ∀ word ∈ typeWords, word.isPrefixOf text = false) :
    typeSpot text = none := by
  have hnone : typeWords.findSome? (fun word => wordName? word isCapital isNameChar text) = none :=
    List.findSome?_eq_none_iff.2 (fun word hword => by simp [wordName?, h word hword])
  rw [typeSpot, hnone]
  rfl

/-- No declaration starts in the modifier. -/
theorem scan_public {gap : List Char} (hgap : ∀ x ∈ gap, Text.isBlank x = true) (hne : gap ≠ [])
    (rest : List Char) :
    scan typeSpot 0 ("public".toList ++ gap ++ rest) = scan typeSpot 0 rest := by
  -- No word starts with a blank, and none goes on as the modifier does behind its letters.
  have hblanks : scan typeSpot 0 (gap ++ rest) = scan typeSpot 0 rest := by
    refine scan_append_of_none (fun skipped c after hsplit => typeSpot_eq_none ?_)
    have hc : Text.isBlank c = true := hgap c (by rw [hsplit]; simp)
    have hwords : ∀ word ∈ typeWords, ∃ x more, word = x :: more ∧ Text.isBlank x = false := by
      simp [typeWords]
      decide
    intro word hword
    rcases hwords word hword with ⟨x, more, rfl, hx⟩
    have hdiffer : (x == c) = false := by
      rw [beq_eq_false_iff_ne]
      rintro rfl
      rw [hx] at hc
      cases hc
    rw [List.isPrefixOf, hdiffer, Bool.false_and]
  rw [← hblanks]
  rcases List.exists_cons_of_ne_nil hne with ⟨b, gap, rfl⟩
  have hb : ('l' == b) = false := by
    rw [beq_eq_false_iff_ne]
    rintro rfl
    exact absurd (hgap 'l' (by simp)) (by decide)
  show scan typeSpot 0 ('p' :: 'u' :: 'b' :: 'l' :: 'i' :: 'c' :: b :: (gap ++ rest)) = _
  rw [scan_of_none, scan_of_none, scan_of_none, scan_of_none, scan_of_none, scan_of_none]
  · rfl
  all_goals exact typeSpot_eq_none (by simp [typeWords, List.isPrefixOf, hb])

theorem spots_typeDeclaration : typeDeclaration.Spots typeSpot := by
  have hstraight : bareDeclaration.straight? 0 = some 1 := rfl
  have hspots : Spots (.optional (.literal "public" ++ .blanks1) ++ bareDeclaration) typeSpot := by
    refine Spots.after_optional rfl hstraight spots_bareDeclaration ?_
    rintro _ ⟨word, gap, rfl, hword, hgap⟩ rest
    rcases reads_many1.1 hgap with ⟨hgap, hne⟩
    rw [reads_literal.1 hword]
    exact scan_public hgap hne rest
  exact ⟨hspots.found, hspots.lost⟩

/-- Declared types are found by one scan over the text. -/
theorem declaredTypes_eq_scan (text : List Char) : declaredTypes text = scan typeSpot 0 text :=
  captures1_eq_scan spots_typeDeclaration text

/-! ## Imports and packages -/

def clause (word : String) (more : Char → Bool) : Pattern :=
  .literal word ++ .blanks1 ++ .group 1 (.one isNameStart ++ .many more) ++ .blanks ++ .char ';'

def clauseSpot (word : String) (more : Char → Bool) : Spot := fun text =>
  (wordName? word.toList isNameStart more text).bind fun found =>
    let rest := found.2.dropWhile Text.isBlank
    if rest.head? = some ';' then some (String.ofList found.1, text.length + 1 - rest.length)
    else none

theorem isNameChar_of_isNameStart {c : Char} (h : isNameStart c = true) : isNameChar c = true := by
  simp only [isNameStart, isNameChar, Bool.or_eq_true] at h ⊢
  exact h.elim (fun hletter => Or.inl (Or.inl hletter)) Or.inr

theorem not_isBlank_of_isNameStart {c : Char} (h : isNameStart c = true) : Text.isBlank c = false :=
  not_isBlank_of_isNameChar (isNameChar_of_isNameStart h)

section

variable {word : String} {more : Char → Bool}

theorem isPlain_word : (Pattern.literal word ++ .blanks1).isPlain = true :=
  Bool.and_eq_true_iff.2 ⟨isPlain_literalChars _, rfl⟩

/-- A clause is a word, a name and a semicolon, with blanks between them. -/
theorem clause_matches {piece : List Char} {groups : List (Nat × List Char)} :
    (clause word more).Matches piece groups ↔ ∃ front name gap,
      IsWordName word.toList isNameStart more front name ∧ (∀ y ∈ gap, Text.isBlank y = true) ∧
      piece = front ++ (gap ++ [';']) ∧ groups = [(1, name)] := by
  constructor
  · intro h
    rcases matches_append_plain rfl h with ⟨_, mark, rfl, h, hmark⟩
    rcases matches_append_plain rfl h with ⟨_, gap', rfl, h, hgap'⟩
    rcases matches_plain_append isPlain_word h with
      ⟨_, name, rfl, ⟨first, gap, rfl, hword, hgap⟩, rfl, hname⟩
    rcases hname with ⟨_, body, rfl, ⟨x, hx, rfl⟩, hbody⟩
    rcases reads_many1.1 hgap with ⟨hgap, hne⟩
    rw [reads_literal.1 hword, reads_char.1 hmark]
    exact ⟨_, x :: body, gap', ⟨gap, x, body, rfl, rfl, hne, hgap, hx, reads_many.1 hbody⟩,
      reads_many.1 hgap', by simp, rfl⟩
  · rintro ⟨_, _, gap', ⟨gap, x, body, rfl, rfl, hne, hgap, hx, hbody⟩, hgap', rfl, rfl⟩
    have hfront : (Pattern.literal word ++ .blanks1).Matches (word.toList ++ gap) [] :=
      (matches_plain isPlain_word).2 ⟨rfl, _, gap, rfl, reads_literal.2 rfl,
        reads_many1.2 ⟨hgap, hne⟩⟩
    have hname : (Pattern.group 1 (.one isNameStart ++ .many more)).Matches (x :: body)
        [(1, x :: body)] := ⟨rfl, [x], body, rfl, ⟨x, hx, rfl⟩, reads_many.2 hbody⟩
    have hend : Pattern.blanks.Matches gap' [] := (matches_plain rfl).2 ⟨rfl, reads_many.2 hgap'⟩
    have hmark : (Pattern.char ';').Matches [';'] [] :=
      (matches_plain rfl).2 ⟨rfl, reads_char.2 rfl⟩
    exact ⟨_, _, _, _, by simp, rfl,
      ⟨_, _, _, _, rfl, rfl, ⟨_, _, _, _, rfl, rfl, hfront, hname⟩, hend⟩, hmark⟩

theorem dropWhile_blank_semicolon {text rest : List Char} :
    text.dropWhile Text.isBlank = ';' :: rest ↔
      ∃ gap, (∀ y ∈ gap, Text.isBlank y = true) ∧ text = gap ++ ';' :: rest := by
  constructor
  · intro h
    refine ⟨text.takeWhile Text.isBlank, List.all_eq_true.1 List.all_takeWhile, ?_⟩
    rw [← h, List.takeWhile_append_dropWhile]
  · rintro ⟨gap, hgap, rfl⟩
    exact (takeWhile_append_stop hgap (by rintro x ⟨⟩; decide)).2

/-- A name that can go on with neither blanks nor a semicolon is read whole. -/
theorem clauseSpot_eq_some_iff (hblank : ∀ c, Text.isBlank c = true → more c = false)
    (hmark : more ';' = false) {text : List Char} {name : String} {n : Nat} :
    clauseSpot word more text = some (name, n) ↔ ∃ piece rest, text = piece ++ rest ∧ True ∧
      (clause word more).Matches piece [(1, name.toList)] ∧ n = piece.length := by
  constructor
  · intro h
    rcases Option.bind_eq_some_iff.1 h with ⟨⟨found, rest⟩, hfound, hend⟩
    rcases (wordName?_eq_some_iff (fun _ => not_isBlank_of_isNameStart)).1 hfound with
      ⟨front, rfl, hfront, -⟩
    dsimp only at hend
    split at hend
    · next hhead =>
      cases hend
      rcases List.head?_eq_some_iff.1 hhead with ⟨after, hafter⟩
      rcases dropWhile_blank_semicolon.1 hafter with ⟨gap, hgap, rfl⟩
      refine ⟨front ++ (gap ++ [';']), after, by simp, trivial, ?_, ?_⟩
      · exact clause_matches.2 ⟨front, found, gap, hfront, hgap, rfl, by rw [String.toList_ofList]⟩
      · simp only [hafter, List.length_append, List.length_cons, List.length_nil]
        omega
    · cases hend
  · rintro ⟨_, rest, rfl, -, hmatch, rfl⟩
    rcases clause_matches.1 hmatch with ⟨front, found, gap, hfront, hgap, rfl, hgroups⟩
    cases hgroups
    -- The name ends at the first blank or at the semicolon.
    have hstop : ∀ x, (gap ++ ';' :: rest).head? = some x → more x = false := by
      intro x hx
      cases gap with
      | nil =>
        cases hx
        exact hmark
      | cons y gap =>
        cases hx
        exact hblank _ (hgap _ List.mem_cons_self)
    have hname : wordName? word.toList isNameStart more (front ++ (gap ++ ';' :: rest)) =
        some (name.toList, gap ++ ';' :: rest) :=
      (wordName?_eq_some_iff (fun _ => not_isBlank_of_isNameStart)).2 ⟨front, rfl, hfront, hstop⟩
    have hblanks : (gap ++ ';' :: rest).dropWhile Text.isBlank = ';' :: rest :=
      dropWhile_blank_semicolon.2 ⟨gap, hgap, rfl⟩
    have htext : front ++ (gap ++ [';']) ++ rest = front ++ (gap ++ ';' :: rest) := by simp
    rw [htext, clauseSpot, hname]
    simp only [Option.bind_some, hblanks, List.head?_cons, if_true, String.ofList_toList,
      List.length_append, List.length_cons, List.length_nil]
    congr 2
    omega

/-- At a place a clause is read if one starts there. -/
theorem spots_clause (hstraight : (clause word more).straight? 0 = some 1)
    (hsearch : (clause word more).isSearchable = true)
    (hblank : ∀ c, Text.isBlank c = true → more c = false) (hmark : more ';' = false) :
    (clause word more).Spots (clauseSpot word more) := by
  refine Spots.of_matches hstraight hsearch (fun _ _ => trivial) (fun hmatch => ?_)
    (clauseSpot_eq_some_iff hblank hmark)
  rcases clause_matches.1 hmatch with ⟨front, name, gap, -, -, rfl, rfl⟩
  exact ⟨by simp, name, rfl⟩

end

def isImportChar (c : Char) : Bool := isPackageChar c || c == '*'

def importSpot : Spot := clauseSpot "import" isImportChar

def packageSpot : Spot := clauseSpot "package" isPackageChar

theorem not_isImportChar_of_isBlank {c : Char} (h : Text.isBlank c = true) :
    isImportChar c = false := by
  have hname : isNameChar c = false := by
    rw [← Bool.not_eq_true]
    intro hname
    rw [not_isBlank_of_isNameChar hname] at h
    cases h
  have hdot : (c == '.') = false := by
    rw [beq_eq_false_iff_ne]
    rintro rfl
    exact absurd h (by decide)
  have hstar : (c == '*') = false := by
    rw [beq_eq_false_iff_ne]
    rintro rfl
    exact absurd h (by decide)
  simp [isImportChar, isPackageChar, hname, hdot, hstar]

theorem not_isPackageChar_of_isBlank {c : Char} (h : Text.isBlank c = true) :
    isPackageChar c = false :=
  (Bool.or_eq_false_iff.1 (not_isImportChar_of_isBlank h)).1

/-- Imported names are found by one scan over the text. -/
theorem importedNames_eq_scan (text : List Char) :
    importedNames text =
      ((scan importSpot 0 text).filter (fun name => !Text.starts name "java.")).map
        (fun name => Text.lastPart name '.') := by
  have hspots : importClause.Spots importSpot :=
    spots_clause rfl rfl (fun _ => not_isImportChar_of_isBlank) rfl
  rw [importedNames, captures1_eq_scan hspots]

/-- The name of the package is the first one of a scan. -/
theorem packageName?_eq_scan (text : List Char) :
    packageName? text = (scan packageSpot 0 text).head? :=
  firstCapture?_eq_scan (spots_clause rfl rfl (fun _ => not_isPackageChar_of_isBlank) rfl) text

/-! ## Ends of clauses -/

/-- A word without a slash ends before one. -/
theorem isPrefixOf_append_slash {word : List Char} (hword : '/' ∉ word) (before after : List Char) :
    word.isPrefixOf (before ++ '/' :: after) = word.isPrefixOf before := by
  induction word generalizing before with
  | nil => simp
  | cons w word ih =>
    rw [List.mem_cons, not_or] at hword
    cases before with
    | nil => simp [List.isPrefixOf, Ne.symm hword.1]
    | cons c before => simp [List.isPrefixOf, ih hword.2]

theorem takeWhile_append_slash {accepts : Char → Bool} (h : accepts '/' = false)
    (before after : List Char) :
    (before ++ '/' :: after).takeWhile accepts = before.takeWhile accepts ∧
      (before ++ '/' :: after).dropWhile accepts = before.dropWhile accepts ++ '/' :: after := by
  induction before with
  | nil => simp [h]
  | cons c before ih =>
    by_cases hc : accepts c = true
    · simp [hc, ih]
    · simp [hc]

/-- A slash ends a word, blanks and a name. -/
theorem wordName?_append_slash {word : List Char} {first more : Char → Bool} (hword : '/' ∉ word)
    (hfirst : first '/' = false) (hmore : more '/' = false) (before after : List Char) :
    wordName? word first more (before ++ '/' :: after) =
      (wordName? word first more before).map (fun found => (found.1, found.2 ++ '/' :: after)) := by
  have hblank : Text.isBlank '/' = false := by decide
  by_cases hprefix : word.isPrefixOf before = true
  · rcases List.isPrefixOf_iff_prefix.1 hprefix with ⟨rest, rfl⟩
    have hdrop : (word ++ rest ++ '/' :: after).drop word.length = rest ++ '/' :: after := by
      rw [List.append_assoc, List.drop_left]
    simp only [wordName?, isPrefixOf_append_slash hword, hprefix, hdrop, List.drop_left,
      takeWhile_append_slash hblank, Bool.true_and]
    split
    · cases rest.dropWhile Text.isBlank with
      | nil => simp [hfirst]
      | cons c body =>
        by_cases hc : first c = true
        · simp [hc, takeWhile_append_slash hmore]
        · simp [hc]
    · rfl
  · simp [wordName?, isPrefixOf_append_slash hword, hprefix]

/-- A declaration does not reach over a slash. -/
theorem typeSpot_append_slash (before after : List Char) :
    typeSpot (before ++ '/' :: after) = typeSpot before := by
  have hwords : ∀ words : List (List Char), (∀ word ∈ words, '/' ∉ word) →
      words.findSome? (fun word => wordName? word isCapital isNameChar (before ++ '/' :: after)) =
        (words.findSome? (fun word => wordName? word isCapital isNameChar before)).map
          (fun found => (found.1, found.2 ++ '/' :: after)) := by
    intro words hslash
    induction words with
    | nil => rfl
    | cons word words ih =>
      rw [List.findSome?_cons, List.findSome?_cons,
        wordName?_append_slash (hslash word List.mem_cons_self) (by decide) (by decide)]
      cases wordName? word isCapital isNameChar before with
      | some found => rfl
      | none => exact ih (fun word' hword' => hslash word' (List.mem_cons_of_mem _ hword'))
  rw [typeSpot, hwords typeWords (by decide), Option.map_map, typeSpot]
  simp [Function.comp_def, Nat.add_sub_add_right]

/-- A clause does not reach over a slash. -/
theorem clauseSpot_append_slash {word : String} {more : Char → Bool} (hword : '/' ∉ word.toList)
    (hmore : more '/' = false) (before after : List Char) :
    clauseSpot word more (before ++ '/' :: after) = clauseSpot word more before := by
  rw [clauseSpot, wordName?_append_slash hword (by decide) hmore, clauseSpot]
  cases wordName? word.toList isNameStart more before with
  | none => rfl
  | some found =>
    have hblank : Text.isBlank '/' = false := by decide
    simp only [Option.map_some, Option.bind_some, takeWhile_append_slash hblank]
    cases found.2.dropWhile Text.isBlank with
    | nil => rfl
    | cons c rest =>
      have hlength : before.length + (after.length + 1) + 1 -
          (rest.length + (after.length + 1) + 1) =
          before.length + 1 - (rest.length + 1) := by omega
      simp only [List.cons_append, List.head?_cons, List.length_append, List.length_cons, hlength]
      rfl

/-! ## All kinds of clauses -/

/-- What a text is searched for as it is: declarations, imports and packages. -/
def clauseSpots : List Spot := [typeSpot, importSpot, packageSpot]

theorem clauseSpot_length_le {word : String} {more : Char → Bool}
    (hblank : ∀ c, Text.isBlank c = true → more c = false) (hmark : more ';' = false)
    {text : List Char} {name : String} {n : Nat}
    (h : clauseSpot word more text = some (name, n)) : n ≤ text.length := by
  rcases (clauseSpot_eq_some_iff hblank hmark).1 h with ⟨piece, rest, rfl, -, -, rfl⟩
  simp

/-- What is read lies in the text. -/
theorem spot_length_le {spot : Spot} (hspot : spot ∈ clauseSpots) {text : List Char} {name : String}
    {n : Nat} (h : spot text = some (name, n)) : n ≤ text.length := by
  simp only [clauseSpots, List.mem_cons, List.not_mem_nil, or_false] at hspot
  rcases hspot with rfl | rfl | rfl
  · rcases typeSpot_eq_some_iff.1 h with ⟨piece, rest, rfl, -, -, rfl⟩
    simp
  · exact clauseSpot_length_le (fun _ => not_isImportChar_of_isBlank) rfl h
  · exact clauseSpot_length_le (fun _ => not_isPackageChar_of_isBlank) rfl h

/-- No clause goes on behind a slash. -/
theorem spot_append_slash {spot : Spot} (hspot : spot ∈ clauseSpots) (before after : List Char) :
    spot (before ++ '/' :: after) = spot before := by
  simp only [clauseSpots, List.mem_cons, List.not_mem_nil, or_false] at hspot
  rcases hspot with rfl | rfl | rfl
  · exact typeSpot_append_slash before after
  · exact clauseSpot_append_slash (by decide) (by decide) before after
  · exact clauseSpot_append_slash (by decide) (by decide) before after

/-- What a text declares, imports and belongs to depends only on what is found in it. -/
theorem clauses_congr {text text' : List Char}
    (h : ∀ spot ∈ clauseSpots, scan spot 0 text = scan spot 0 text') :
    declaredTypes text = declaredTypes text' ∧ importedNames text = importedNames text' ∧
      packageName? text = packageName? text' := by
  refine ⟨?_, ?_, ?_⟩
  · rw [declaredTypes_eq_scan, declaredTypes_eq_scan, h typeSpot (by simp [clauseSpots])]
  · rw [importedNames_eq_scan, importedNames_eq_scan, h importSpot (by simp [clauseSpots])]
  · rw [packageName?_eq_scan, packageName?_eq_scan, h packageSpot (by simp [clauseSpots])]

end JavaDeps.Java
