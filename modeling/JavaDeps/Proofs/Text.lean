import JavaDeps.Text.Basic

/-!
# Laws of texts

What `Text.split` and `Text.lastPart` do to texts that are put together, and what stands within
such texts.
-/

namespace JavaDeps.Text

theorem splitChars_ne_nil (sep : Char) (chars : List Char) : splitChars sep chars ≠ [] := by
  cases chars with
  | nil => simp [splitChars]
  | cons c rest =>
    unfold splitChars
    by_cases hc : (c == sep) = true
    · simp [hc]
    · simp only [hc]
      cases splitChars sep rest <;> simp

/-- A text is split on either side of a separator. -/
theorem splitChars_append (sep : Char) (first second : List Char) :
    splitChars sep (first ++ sep :: second) = splitChars sep first ++ splitChars sep second := by
  induction first with
  | nil => simp [splitChars]
  | cons c rest ih =>
    by_cases hc : (c == sep) = true
    · simp [splitChars, hc, ih]
    · rcases List.exists_cons_of_ne_nil (splitChars_ne_nil sep rest) with ⟨w, ws, hw⟩
      simp [splitChars, hc, ih, hw]

/-- A text without the separator is not split. -/
theorem splitChars_of_not_mem {sep : Char} {chars : List Char} (h : sep ∉ chars) :
    splitChars sep chars = [chars] := by
  induction chars with
  | nil => rfl
  | cons c rest ih =>
    have hc : ¬ c = sep := fun hc => h (hc ▸ List.mem_cons_self)
    have hrest := ih (fun hmem => h (List.mem_cons_of_mem c hmem))
    simp [splitChars, hc, hrest]

/-- A text without the separator is its own last part. -/
theorem lastPart_of_not_mem {s : String} {sep : Char} (h : sep ∉ s.toList) :
    lastPart s sep = s := by
  simp [lastPart, split, splitChars_of_not_mem h]

theorem lastPart_ofList_append {sep : Char} {first last : List Char} (h : sep ∉ last) :
    lastPart (String.ofList (first ++ sep :: last)) sep = String.ofList last := by
  simp [lastPart, split, splitChars_append, splitChars_of_not_mem h]

/-- The last part of a qualified name is the name. -/
theorem lastPart_dotted {package name : String} (h : '.' ∉ name.toList) :
    lastPart (package ++ "." ++ name) '.' = name := by
  have heq : package ++ "." ++ name = String.ofList (package.toList ++ '.' :: name.toList) := by
    apply String.toList_injective
    simp
  rw [heq, lastPart_ofList_append h, String.ofList_toList]

/-- The parts of a text are without separators. -/
theorem mem_of_mem_splitChars {sep : Char} {chars part : List Char}
    (h : part ∈ splitChars sep chars) : ∀ c ∈ part, c ∈ chars ∧ c ≠ sep := by
  induction chars generalizing part with
  | nil =>
    have hpart : part = [] := by simpa [splitChars] using h
    simp [hpart]
  | cons d rest ih =>
    have hrest : ∀ {part}, part ∈ splitChars sep rest → ∀ c ∈ part, c ∈ d :: rest ∧ c ≠ sep :=
      fun hpart c hc => (ih hpart c hc).imp_left (List.mem_cons_of_mem d)
    by_cases hd : (d == sep) = true
    · simp only [splitChars, hd, if_true] at h
      rcases List.mem_cons.1 h with rfl | h
      · simp
      · exact hrest h
    · rcases List.exists_cons_of_ne_nil (splitChars_ne_nil sep rest) with ⟨w, ws, hw⟩
      simp only [splitChars, hd, hw, Bool.false_eq_true, if_false] at h
      rcases List.mem_cons.1 h with rfl | h
      · intro c hc
        rcases List.mem_cons.1 hc with rfl | hc
        · exact ⟨List.mem_cons_self, by simpa using hd⟩
        · exact hrest (hw ▸ List.mem_cons_self) c hc
      · exact hrest (hw ▸ List.mem_cons_of_mem _ h)

/-- The last part has characters of the text, and no separator. -/
theorem mem_of_mem_lastPart {s : String} {sep c : Char} (h : c ∈ (lastPart s sep).toList) :
    c ∈ s.toList ∧ c ≠ sep := by
  rw [lastPart, split, List.getLast?_map] at h
  cases hlast : (splitChars sep s.toList).getLast? with
  | none =>
    rw [hlast] at h
    cases h
  | some part =>
    rw [hlast, Option.map_some, Option.getD_some, String.toList_ofList] at h
    exact mem_of_mem_splitChars (List.mem_of_getLast? hlast) c h

/-- No part of a text holds the separator. -/
theorem not_mem_of_mem_split {s part : String} {sep : Char} (h : part ∈ split s sep) :
    sep ∉ part.toList := by
  rcases List.mem_map.1 h with ⟨chars, hchars, rfl⟩
  intro hsep
  rw [String.toList_ofList] at hsep
  exact (mem_of_mem_splitChars hchars sep hsep).2 rfl

/-- Parts without the separator, joined by it, are split into the same parts. -/
theorem split_join {sep : Char} {between : String} (hbetween : between.toList = [sep])
    {parts : List String} (hne : parts ≠ []) (hparts : ∀ part ∈ parts, sep ∉ part.toList) :
    split (join between parts) sep = parts := by
  induction parts with
  | nil => exact absurd rfl hne
  | cons part rest ih =>
    have hpart : sep ∉ part.toList := hparts part List.mem_cons_self
    cases rest with
    | nil => simp [join, split, splitChars_of_not_mem hpart]
    | cons next more =>
      have hrest : split (join between (next :: more)) sep = next :: more := by
        apply ih (by simp)
        intro other hother
        exact hparts other (List.mem_cons_of_mem _ hother)
      -- The first separator is the one after the first part.
      have hchars : (join between (part :: next :: more)).toList =
          part.toList ++ sep :: (join between (next :: more)).toList := by
        simp [join, hbetween]
      calc split (join between (part :: next :: more)) sep
          = part :: split (join between (next :: more)) sep := by
            simp [split, hchars, splitChars_append, splitChars_of_not_mem hpart]
        _ = part :: next :: more := by rw [hrest]

theorem splitCharsAtMost_ne_nil (sep : Char) (n : Nat) (chars : List Char) :
    splitCharsAtMost sep n chars ≠ [] := by
  cases chars with
  | nil => simp [splitCharsAtMost]
  | cons c rest =>
    unfold splitCharsAtMost
    split
    · simp
    · split <;> simp

/-- The parts of a text, with separators between them, are the text. -/
theorem intercalate_splitCharsAtMost (sep : Char) (n : Nat) (chars : List Char) :
    [sep].intercalate (splitCharsAtMost sep n chars) = chars := by
  induction chars generalizing n with
  | nil => rfl
  | cons c rest ih =>
    by_cases hc : (c == sep && n != 0) = true
    · have hsep : c = sep := by simpa using (Bool.and_eq_true_iff.1 hc).1
      have hrest := ih (n - 1)
      rcases List.exists_cons_of_ne_nil (splitCharsAtMost_ne_nil sep (n - 1) rest) with ⟨w, ws, hw⟩
      simp only [splitCharsAtMost, hc, if_true, hw] at hrest ⊢
      rw [List.intercalate_cons_cons, hrest, hsep]
      rfl
    · have hrest := ih n
      rcases List.exists_cons_of_ne_nil (splitCharsAtMost_ne_nil sep n rest) with ⟨w, ws, hw⟩
      simp only [splitCharsAtMost, hc, hw, Bool.false_eq_true, if_false] at hrest ⊢
      cases ws with
      | nil => simpa using hrest
      | cons v vs =>
        rw [List.intercalate_cons_cons] at hrest ⊢
        rw [List.cons_append, List.cons_append, hrest]

/-- A text is cut at all separators, or at the first ones if there are more than asked for. -/
theorem length_splitCharsAtMost (sep : Char) (n : Nat) (chars : List Char) :
    (splitCharsAtMost sep n chars).length = min n (chars.count sep) + 1 := by
  induction chars generalizing n with
  | nil => simp [splitCharsAtMost]
  | cons c rest ih =>
    by_cases hc : (c == sep && n != 0) = true
    · have hsep := (Bool.and_eq_true_iff.1 hc).1
      have hn : n ≠ 0 := by simpa using (Bool.and_eq_true_iff.1 hc).2
      rw [List.count_cons, if_pos hsep]
      simp only [splitCharsAtMost, hc, if_true, List.length_cons, ih]
      omega
    · have hcount : min n ((c :: rest).count sep) = min n (rest.count sep) := by
        rw [List.count_cons]
        by_cases hsep : (c == sep) = true
        · have hn : n = 0 := by simpa [hsep] using hc
          simp [hn]
        · simp [hsep]
      have hrest := ih n
      rcases List.exists_cons_of_ne_nil (splitCharsAtMost_ne_nil sep n rest) with ⟨w, ws, hw⟩
      simp only [splitCharsAtMost, hc, hw, hcount, Bool.false_eq_true, if_false] at hrest ⊢
      exact hrest

/-- A text occurs wherever it stands. -/
theorem occursIn_append (before needle after : List Char) :
    occursIn needle (before ++ (needle ++ after)) = true := by
  induction before with
  | nil =>
    cases h : needle ++ after with
    | nil => simp [occursIn, (List.append_eq_nil_iff.1 h).1]
    | cons c rest =>
      have hpre : needle.isPrefixOf (c :: rest) = true := by
        rw [List.isPrefixOf_iff_prefix, ← h]
        exact List.prefix_append needle after
      simp [occursIn, hpre]
  | cons c before ih => simp [occursIn, ih]

theorem within_append (before needle after : String) :
    within needle (before ++ needle ++ after) = true := by
  simp only [within, String.toList_append, List.append_assoc]
  exact occursIn_append _ _ _

/-- Joined parts end with the last one. -/
theorem join_toList (sep : String) {parts : List String} (h : parts ≠ []) :
    ∃ front, (join sep parts).toList = front ++ ((parts.getLast?).getD "").toList := by
  induction parts with
  | nil => exact absurd rfl h
  | cons part rest ih =>
    cases rest with
    | nil => exact ⟨[], rfl⟩
    | cons next more =>
      rcases ih (by simp) with ⟨front, hfront⟩
      refine ⟨part.toList ++ sep.toList ++ front, ?_⟩
      rw [join, String.toList_append, String.toList_append, hfront, List.getLast?_cons_cons]
      · simp only [List.append_assoc]
      · simp

/-- A text occurs in another one exactly if it is a piece of it. -/
theorem occursIn_iff {needle text : List Char} :
    occursIn needle text = true ↔ needle <:+: text := by
  induction text with
  | nil => cases needle <;> simp [occursIn]
  | cons c rest ih =>
    rw [occursIn, Bool.or_eq_true, List.isPrefixOf_iff_prefix, ih, List.infix_cons_iff]

end JavaDeps.Text
