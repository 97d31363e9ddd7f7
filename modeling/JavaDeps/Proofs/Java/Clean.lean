import JavaDeps.Java.Clean
import JavaDeps.Proofs.Text

/-!
# Passes over comments

The file shows what the passes that drop comments do with a part of a text. A part in which no
comment starts stays as it is, and a comment is dropped. The text in which a comment stands goes on
behind it as if the comment were not there.
-/

namespace JavaDeps

namespace Text

/-! ## Pairs of characters -/

theorem isPrefixOf_pair {a b c : Char} {rest : List Char} :
    [a, b].isPrefixOf (c :: rest) = true ↔ c = a ∧ ∃ body, rest = b :: body := by
  cases rest with
  | nil => simp [List.isPrefixOf]
  | cons d rest =>
    simp only [List.isPrefixOf, Bool.and_true, Bool.and_eq_true, beq_iff_eq, List.cons.injEq,
      exists_and_left, exists_eq', and_true]
    exact and_congr eq_comm eq_comm

/-- Whether a pair stands in a text and at its end depends only on the next character. -/
theorem isPrefixOf_pair_take (a b c : Char) (text rest : List Char) :
    [a, b].isPrefixOf (c :: (text ++ rest.take 1)) = [a, b].isPrefixOf (c :: (text ++ rest)) := by
  cases text with
  | nil => cases rest <;> simp [List.isPrefixOf]
  | cons d text => simp [List.isPrefixOf]

theorem occursIn_pair_append {a b : Char} {text : List Char} (h : occursIn [a, b] text = false)
    (hlast : text.getLast? ≠ some a) (rest : List Char) :
    occursIn [a, b] (text ++ rest.take 1) = false := by
  induction text with
  | nil => cases rest <;> simp [occursIn, List.isPrefixOf]
  | cons c text ih =>
    rw [occursIn, Bool.or_eq_false_iff] at h
    rw [List.cons_append, occursIn, Bool.or_eq_false_iff]
    cases text with
    | nil =>
      have hc : (a == c) = false := beq_eq_false_iff_ne.2 (fun hc => hlast (hc ▸ rfl))
      cases rest <;> simp [occursIn, List.isPrefixOf, hc]
    | cons d text =>
      refine ⟨?_, ih h.2 (by simpa using hlast)⟩
      simpa [List.isPrefixOf] using h.1

end Text

namespace Java

open Text

/-! ## Line comments -/

theorem dropLineComments_cons {c : Char} {rest : List Char}
    (h : ['/', '/'].isPrefixOf (c :: rest) = false) :
    dropLineComments false (c :: rest) = c :: dropLineComments false rest := by
  rw [dropLineComments]
  intro body hc hrest
  rw [isPrefixOf_pair.2 ⟨hc, body, hrest⟩] at h
  cases h

/-- Text without a pair of slashes is kept. -/
theorem dropLineComments_append {text rest : List Char}
    (h : occursIn ['/', '/'] (text ++ rest.take 1) = false) :
    dropLineComments false (text ++ rest) = text ++ dropLineComments false rest := by
  induction text with
  | nil => rfl
  | cons c text ih =>
    rw [List.cons_append, occursIn, Bool.or_eq_false_iff, isPrefixOf_pair_take] at h
    rw [List.cons_append, dropLineComments_cons h.1, ih h.2, List.cons_append]

/-- A line comment is deleted up to the end of its line. -/
theorem dropLineComments_line {body rest : List Char} (hbody : '\n' ∉ body)
    (hrest : ∀ x, rest.head? = some x → x = '\n') :
    dropLineComments false ('/' :: '/' :: body ++ rest) = dropLineComments false rest := by
  have hinside : dropLineComments true (body ++ rest) = dropLineComments true rest := by
    induction body with
    | nil => rfl
    | cons c body ih =>
      rw [List.mem_cons, not_or] at hbody
      have hc : (c == '\n') = false := beq_eq_false_iff_ne.2 (Ne.symm hbody.1)
      rw [List.cons_append, dropLineComments, hc]
      exact ih hbody.2
  have hend : dropLineComments true rest = dropLineComments false rest := by
    cases rest with
    | nil => rfl
    | cons x rest =>
      cases hrest x rfl
      rfl
  calc dropLineComments false ('/' :: '/' :: body ++ rest)
      = dropLineComments true (body ++ rest) := rfl
    _ = dropLineComments false rest := hinside.trans hend

/-- What is left of a line comment is the end of its line. -/
theorem head?_dropLineComments_true {rest : List Char} {x : Char}
    (h : (dropLineComments true rest).head? = some x) : x = '\n' := by
  induction rest with
  | nil => cases h
  | cons c rest ih =>
    rw [dropLineComments] at h
    split at h
    · next hc =>
      cases h
      exact beq_iff_eq.1 hc
    · exact ih h

theorem head?_dropLineComments {rest : List Char} {x : Char}
    (h : (dropLineComments false rest).head? = some x) : x = '\n' ∨ rest.head? = some x := by
  cases rest with
  | nil => cases h
  | cons c rest =>
    by_cases hpair : ['/', '/'].isPrefixOf (c :: rest) = true
    · rcases isPrefixOf_pair.1 hpair with ⟨rfl, body, rfl⟩
      exact Or.inl (head?_dropLineComments_true h)
    · rw [dropLineComments_cons (Bool.eq_false_iff.2 hpair)] at h
      exact Or.inr h

/-- Comments are deleted line by line. -/
theorem dropLineComments_newline (inside : Bool) (text rest : List Char) :
    dropLineComments inside (text ++ '\n' :: rest) =
      dropLineComments inside text ++ '\n' :: dropLineComments false rest := by
  induction text generalizing inside with
  | nil => cases inside <;> rfl
  | cons c text ih =>
    rw [List.cons_append]
    cases inside with
    | true =>
      rw [dropLineComments, dropLineComments]
      split
      · rw [ih, List.cons_append]
      · exact ih true
    | false =>
      have hpair : ['/', '/'].isPrefixOf (c :: (text ++ '\n' :: rest)) =
          ['/', '/'].isPrefixOf (c :: text) := by
        cases text <;> simp [List.isPrefixOf]
      by_cases hline : ['/', '/'].isPrefixOf (c :: text) = true
      · rcases isPrefixOf_pair.1 hline with ⟨rfl, body, rfl⟩
        exact ih true
      · rw [Bool.not_eq_true] at hline
        rw [dropLineComments_cons hline, dropLineComments_cons (hpair.trans hline), ih,
          List.cons_append]

def lastLine (text : List Char) : List Char := (text.reverse.takeWhile (· != '\n')).reverse

/-- The last line is the whole text, or a line end stands before it. -/
theorem lastLine_cases (text : List Char) :
    lastLine text = text ∨ ∃ front, text = front ++ '\n' :: lastLine text := by
  have hsplit := List.takeWhile_append_dropWhile (p := (· != '\n')) (l := text.reverse)
  have htext : text = (text.reverse.dropWhile (· != '\n')).reverse ++ lastLine text := by
    rw [lastLine, ← List.reverse_append, hsplit, List.reverse_reverse]
  cases hdrop : text.reverse.dropWhile (· != '\n') with
  | nil =>
    rw [hdrop] at htext
    exact Or.inl htext.symm
  | cons x front =>
    have hx : x = '\n' := by
      have hhead := List.head?_dropWhile_not (· != '\n') text.reverse
      simpa [hdrop] using hhead
    rw [hdrop, hx] at htext
    exact Or.inr ⟨front.reverse, by simpa using htext⟩

/-! ## Block comments -/

theorem closesBlock_eq (text : List Char) : closesBlock text = occursIn ['*', '/'] text := by
  fun_induction closesBlock text with
  | case1 rest => simp [occursIn, List.isPrefixOf]
  | case2 c rest hnot ih =>
    have hpair : ['*', '/'].isPrefixOf (c :: rest) = false := by
      rw [← Bool.not_eq_true, isPrefixOf_pair]
      rintro ⟨hc, body, hrest⟩
      exact hnot body hc hrest
    rw [occursIn, hpair, Bool.false_or, ih]
  | case3 => rfl

theorem closesBlock_cons (c : Char) (rest : List Char) :
    closesBlock (c :: rest) = (['*', '/'].isPrefixOf (c :: rest) || closesBlock rest) := by
  rw [closesBlock_eq, closesBlock_eq, occursIn]

/-- No end of a block comment comes about where line comments are dropped. -/
theorem closesBlock_of_dropLineComments {inside : Bool} {text : List Char}
    (h : closesBlock (dropLineComments inside text) = true) : closesBlock text = true := by
  induction text generalizing inside with
  | nil => cases inside <;> cases h
  | cons c text ih =>
    rw [closesBlock_cons, Bool.or_eq_true]
    cases inside with
    | true =>
      rw [dropLineComments] at h
      split at h
      · next hc =>
        rw [beq_iff_eq.1 hc, closesBlock_cons, Bool.or_eq_true] at h
        rcases h with hpair | hclose
        · exact absurd (isPrefixOf_pair.1 hpair).1 (by decide)
        · exact Or.inr (ih hclose)
      · exact Or.inr (ih h)
    | false =>
      by_cases hline : ['/', '/'].isPrefixOf (c :: text) = true
      · rcases isPrefixOf_pair.1 hline with ⟨rfl, body, rfl⟩
        exact Or.inr (ih (show closesBlock (dropLineComments true ('/' :: body)) = true from h))
      · rw [dropLineComments_cons (Bool.eq_false_iff.2 hline), closesBlock_cons,
          Bool.or_eq_true] at h
        -- A slash behind the star cannot come from a line comment, of which only the end is left.
        refine h.imp (fun hpair => ?_) ih
        rcases isPrefixOf_pair.1 hpair with ⟨hc, body, hbody⟩
        rcases head?_dropLineComments (by rw [hbody]; rfl) with hslash | hhead
        · cases hslash
        · rcases List.head?_eq_some_iff.1 hhead with ⟨body', hbody'⟩
          exact isPrefixOf_pair.2 ⟨hc, body', hbody'⟩

theorem dropBlockComments_cons {c : Char} {rest : List Char}
    (h : ['/', '*'].isPrefixOf (c :: rest) = true → closesBlock (rest.drop 1) = false) :
    dropBlockComments .outside (c :: rest) = c :: dropBlockComments .outside rest := by
  by_cases hpair : ['/', '*'].isPrefixOf (c :: rest) = true
  · rcases isPrefixOf_pair.1 hpair with ⟨rfl, body, rfl⟩
    have hopen : closesBlock body = false := h hpair
    rw [dropBlockComments, if_neg (Bool.eq_false_iff.1 hopen)]
  · rw [dropBlockComments]
    intro body hc hrest
    exact hpair (isPrefixOf_pair.2 ⟨hc, body, hrest⟩)

/-- Text without the start of a block is kept. -/
theorem dropBlockComments_append {text rest : List Char}
    (h : occursIn ['/', '*'] (text ++ rest.take 1) = false) :
    dropBlockComments .outside (text ++ rest) = text ++ dropBlockComments .outside rest := by
  induction text with
  | nil => rfl
  | cons c text ih =>
    rw [List.cons_append, occursIn, Bool.or_eq_false_iff, isPrefixOf_pair_take] at h
    rw [List.cons_append, dropBlockComments_cons (fun hpair => ?_), ih h.2, List.cons_append]
    rw [h.1] at hpair
    cases hpair

/-- A block is deleted up to its first end. -/
theorem dropBlockComments_block {body : List Char} (hbody : closesBlock (body ++ ['*']) = false)
    (rest : List Char) :
    dropBlockComments .outside ('/' :: '*' :: (body ++ ['*', '/']) ++ rest) =
      dropBlockComments .outside rest := by
  -- The first star with a slash behind it is the one at the end of the body.
  have hinside : dropBlockComments .inside (body ++ '*' :: '/' :: rest) =
      dropBlockComments .outside rest := by
    induction body with
    | nil => rfl
    | cons c body ih =>
      rw [List.cons_append, closesBlock_cons, Bool.or_eq_false_iff] at hbody
      rw [List.cons_append, dropBlockComments, ih hbody.2]
      intro tail hc htail
      have hpair : ['*', '/'].isPrefixOf (c :: (body ++ ['*'])) = true := by
        cases body with
        | nil => cases htail
        | cons d body =>
          cases htail
          exact isPrefixOf_pair.2 ⟨hc, _, rfl⟩
      rw [hbody.1] at hpair
      cases hpair
  have hclose : closesBlock (body ++ '*' :: '/' :: rest) = true := by
    rw [closesBlock_eq]
    exact occursIn_append body ['*', '/'] rest
  have htext : body ++ ['*', '/'] ++ rest = body ++ '*' :: '/' :: rest := by simp
  rw [List.cons_append, List.cons_append, htext, dropBlockComments, if_pos hclose,
    dropBlockComments, hinside]

/-- The end of a block does not reach over a line end. -/
theorem closesBlock_newline (text rest : List Char) :
    closesBlock (text ++ '\n' :: rest) = (closesBlock text || closesBlock rest) := by
  induction text with
  | nil => simp [closesBlock_cons, List.isPrefixOf, closesBlock]
  | cons c text ih =>
    have hpair : ['*', '/'].isPrefixOf (c :: (text ++ '\n' :: rest)) =
        ['*', '/'].isPrefixOf (c :: text) := by
      cases text <;> simp [List.isPrefixOf]
    rw [List.cons_append, closesBlock_cons, closesBlock_cons, hpair, ih, Bool.or_assoc]

/-- A line feed in a block comment stands between its marks. -/
theorem split_block_newline {body front last : List Char}
    (h : '/' :: '*' :: (body ++ ['*', '/']) = front ++ '\n' :: last) :
    ∃ first second, body = first ++ '\n' :: second ∧ front = '/' :: '*' :: first ∧
      last = second ++ ['*', '/'] := by
  cases front with
  | nil => cases h
  | cons x front =>
    cases front with
    | nil => cases h
    | cons y first =>
      simp only [List.cons_append, List.cons.injEq] at h
      rcases h with ⟨rfl, rfl, hrest⟩
      rcases List.append_eq_append_iff.1 hrest with ⟨tail, -, htail⟩ | ⟨second, rfl, hsecond⟩
      · have hmem : '\n' ∈ ['*', '/'] := by rw [htail]; simp
        exact absurd hmem (by decide)
      · cases second with
        | nil => cases hsecond
        | cons z second =>
          rcases List.cons.inj hsecond with ⟨rfl, rfl⟩
          exact ⟨first, second, rfl, rfl, rfl⟩

/-- A block comment without two slashes in its last line is one too where line comments are
dropped. -/
theorem dropLineComments_block {body rest : List Char} (hbody : closesBlock (body ++ ['*']) = false)
    (hline : occursIn ['/', '/']
      (lastLine ('/' :: '*' :: (body ++ ['*', '/'])) ++ rest.take 1) = false) :
    ∃ body', dropLineComments false ('/' :: '*' :: (body ++ ['*', '/']) ++ rest) =
        '/' :: '*' :: (body' ++ ['*', '/']) ++ dropLineComments false rest ∧
      closesBlock (body' ++ ['*']) = false := by
  rcases lastLine_cases ('/' :: '*' :: (body ++ ['*', '/'])) with hlast | ⟨front, hfront⟩
  · rw [hlast] at hline
    exact ⟨body, dropLineComments_append hline, hbody⟩
  · generalize lastLine ('/' :: '*' :: (body ++ ['*', '/'])) = last at hline hfront
    rcases split_block_newline hfront with ⟨first, second, rfl, rfl, rfl⟩
    have hclose : closesBlock first = false ∧ closesBlock (second ++ ['*']) = false := by
      rw [List.append_assoc, List.cons_append, closesBlock_newline] at hbody
      exact Bool.or_eq_false_iff.1 hbody
    refine ⟨dropLineComments false first ++ '\n' :: second, ?_, ?_⟩
    · have hopen : dropLineComments false ('/' :: '*' :: first) =
          '/' :: '*' :: dropLineComments false first := rfl
      have htext : '/' :: '*' :: (first ++ '\n' :: second ++ ['*', '/']) ++ rest =
          '/' :: '*' :: first ++ '\n' :: (second ++ ['*', '/'] ++ rest) := by simp
      rw [htext, dropLineComments_newline, dropLineComments_append hline, hopen]
      simp
    · rw [List.append_assoc, List.cons_append, closesBlock_newline, hclose.2, Bool.or_false,
        ← Bool.not_eq_true]
      intro hfirst
      rw [closesBlock_of_dropLineComments hfirst] at hclose
      cases hclose.1

end Java

end JavaDeps
