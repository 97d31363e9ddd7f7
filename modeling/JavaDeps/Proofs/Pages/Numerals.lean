import JavaDeps.Pages.Store
import JavaDeps.Proofs.Text

/-!
# Ids with numerals

The id of a page function is a mark and the text of its number, mostly the decimal numeral of an
integer.

The file proves:
- different integers have different numerals;
- the mark can be taken off, which leaves the text, unless the mark occurs in it again;
- a numeral within the limit is read as the integer it was written for.
-/

namespace JavaDeps

namespace Text

/-! ## Digits -/

theorem toList_ofNat (n : Nat) : (ofNat n).toList = Nat.toDigits 10 n := String.toList_ofList

/-- A numeral of a natural number has digits only. -/
theorem isDigit_of_mem_ofNat {n : Nat} {c : Char} (h : c ∈ (ofNat n).toList) : c.isDigit = true :=
  Nat.isDigit_of_mem_toDigits (by decide) (by decide) (toList_ofNat n ▸ h)

theorem ofNat_injective {m n : Nat} (h : ofNat m = ofNat n) : m = n := by
  have hdigits : Nat.toDigits 10 m = Nat.toDigits 10 n := by
    rw [← toList_ofNat, ← toList_ofNat, h]
  have hvalues := congrArg (fun digits => Nat.ofDigitChars 10 digits 0) hdigits
  simpa using hvalues

theorem toList_ofInt_negSucc (n : Nat) :
    (ofInt (.negSucc n)).toList = '-' :: (ofNat (n + 1)).toList := by
  rw [ofInt, String.toList_append]
  rfl

/-- A numeral of an integer has digits only, apart from a minus. -/
theorem eq_minus_or_isDigit_of_mem_ofInt {n : Int} {c : Char} (h : c ∈ (ofInt n).toList) :
    c = '-' ∨ c.isDigit = true := by
  cases n with
  | ofNat n => exact .inr (isDigit_of_mem_ofNat h)
  | negSucc n =>
    rw [toList_ofInt_negSucc] at h
    exact (List.mem_cons.1 h).imp_right isDigit_of_mem_ofNat

/-- The numeral of a natural number does not start with a sign. -/
theorem ofNat_ne_minus_cons (n : Nat) (rest : List Char) : (ofNat n).toList ≠ '-' :: rest := by
  intro h
  have hdigit : '-'.isDigit = true := isDigit_of_mem_ofNat (h ▸ List.mem_cons_self)
  exact absurd hdigit (by decide)

/-- Different integers have different numerals. -/
theorem ofInt_injective {m n : Int} (h : ofInt m = ofInt n) : m = n := by
  have hlists : (ofInt m).toList = (ofInt n).toList := congrArg String.toList h
  cases m with
  | ofNat m =>
    cases n with
    | ofNat n => rw [ofNat_injective h]
    | negSucc n =>
      rw [toList_ofInt_negSucc] at hlists
      exact absurd hlists (ofNat_ne_minus_cons m _)
  | negSucc m =>
    cases n with
    | ofNat n =>
      rw [toList_ofInt_negSucc] at hlists
      exact absurd hlists.symm (ofNat_ne_minus_cons n _)
    | negSucc n =>
      rw [toList_ofInt_negSucc, toList_ofInt_negSucc] at hlists
      have hsucc := ofNat_injective (String.toList_injective (List.cons.inj hlists).2)
      rw [Nat.succ.inj hsucc]

/-! ## Replacing -/

/-- What is still to be passed over is passed over. -/
theorem replaceFrom_length (old new passed rest : List Char) :
    replaceFrom old new passed.length (passed ++ rest) = replaceFrom old new 0 rest := by
  induction passed with
  | nil => rfl
  | cons c passed ih => exact ih

/-- An occurrence at the start is replaced, and the rest follows. -/
theorem replaceFrom_append (c : Char) (old new rest : List Char) :
    replaceFrom (c :: old) new 0 (c :: old ++ rest) =
      new ++ replaceFrom (c :: old) new 0 rest := by
  have hstart : (c :: old).isPrefixOf (c :: (old ++ rest)) = true :=
    List.isPrefixOf_iff_prefix.2 (List.prefix_append (c :: old) rest)
  have hpassed := replaceFrom_length (c :: old) new old rest
  rw [List.cons_append, replaceFrom, if_pos hstart, List.length_cons, Nat.add_sub_cancel, hpassed]

/-- A text without an occurrence stays as it is. -/
theorem replaceFrom_of_not_occursIn {old text : List Char} (h : occursIn old text = false)
    (new : List Char) : replaceFrom old new 0 text = text := by
  induction text with
  | nil => rfl
  | cons c rest ih =>
    rw [occursIn, Bool.or_eq_false_iff] at h
    rw [replaceFrom, if_neg (by simp [h.1]), ih h.2]

theorem length_replaceFrom_le (old : List Char) (count : Nat) (text : List Char) :
    (replaceFrom old [] count text).length ≤ text.length := by
  induction text generalizing count with
  | nil => cases count <;> exact Nat.le_refl 0
  | cons c rest ih =>
    cases count with
    | zero =>
      rw [replaceFrom]
      split
      · exact Nat.le_succ_of_le (ih _)
      · exact Nat.succ_le_succ (ih 0)
    | succ n => exact Nat.le_succ_of_le (ih n)

/-- A text in which something is taken out gets shorter. -/
theorem length_replaceFrom_lt {old text : List Char} (hold : old ≠ [])
    (h : occursIn old text = true) :
    (replaceFrom old [] 0 text).length < text.length := by
  induction text with
  | nil => exact absurd (List.isEmpty_iff.1 h) hold
  | cons c rest ih =>
    rw [replaceFrom]
    split
    · exact Nat.lt_succ_of_le (length_replaceFrom_le _ _ _)
    · rename_i hstart
      rw [occursIn, Bool.or_eq_true] at h
      exact Nat.succ_lt_succ (ih (h.resolve_left hstart))

/-! ## Reading -/

theorem digitValue?_of_isDigit {c : Char} (h : c.isDigit = true) :
    digitValue? c = some (c.toNat - 48) := by
  have hbounds : 48 ≤ c.toNat ∧ c.toNat ≤ 57 := by
    simpa [Char.isDigit, Char.le_def, UInt32.le_iff_toNat_le] using h
  have hascii : c.toNat < 128 := by omega
  simp [digitValue?, hascii, hbounds.1, hbounds.2]

/-- Digits up to the end of a text are read one by one. -/
theorem readRun_digits {digits : List Char} (hdigits : ∀ c ∈ digits, c.isDigit = true)
    (run : DigitRun) {digitBefore : Bool} (hbefore : digits = [] → digitBefore = true) :
    readRun run digitBefore digits =
      some (⟨Nat.ofDigitChars 10 digits run.value, run.count + digits.length⟩, []) := by
  induction digits generalizing run digitBefore with
  | nil => simp [readRun, hbefore rfl, Nat.ofDigitChars]
  | cons c rest ih =>
    have hc : c.isDigit = true := hdigits c List.mem_cons_self
    have hunderscore : (c == '_') = false := by
      refine Bool.eq_false_iff.2 (fun h => ?_)
      rw [eq_of_beq h] at hc
      exact absurd hc (by decide)
    have hrest := ih (fun d hd => hdigits d (List.mem_cons_of_mem c hd))
      ⟨run.value * 10 + (c.toNat - 48), run.count + 1⟩ (fun _ => rfl)
    simp only [readRun, hunderscore, digitValue?_of_isDigit hc, hrest]
    simp [Nat.ofDigitChars, Nat.add_comm, Nat.add_left_comm, Nat.mul_comm]

/-- The numeral of a natural number is read to its end. -/
theorem readRun_ofNat (n : Nat) :
    readRun ⟨0, 0⟩ false (ofNat n).toList = some (⟨n, (Nat.toDigits 10 n).length⟩, []) := by
  have hne : (ofNat n).toList = [] → false = true := by
    intro h
    rw [toList_ofNat] at h
    exact absurd h Nat.toDigits_ne_nil
  rw [readRun_digits (fun c hc => isDigit_of_mem_ofNat hc) ⟨0, 0⟩ hne, toList_ofNat]
  simp

theorem isPadding_minus_or_isDigit {c : Char} (h : c = '-' ∨ c.isDigit = true) :
    isPadding c = false := by
  rcases h with rfl | h
  · decide
  · have hbounds : 48 ≤ c.toNat ∧ c.toNat ≤ 57 := by
      simpa [Char.isDigit, Char.le_def, UInt32.le_iff_toNat_le] using h
    simp only [isPadding, isBlank]
    grind

theorem dropWhile_isPadding_ofInt (n : Int) :
    (ofInt n).toList.dropWhile isPadding = (ofInt n).toList := by
  have hpadding : ∀ c ∈ (ofInt n).toList, isPadding c = false :=
    fun c hc => isPadding_minus_or_isDigit (eq_minus_or_isDigit_of_mem_ofInt hc)
  cases hlist : (ofInt n).toList with
  | nil => rfl
  | cons c rest => simp [hpadding c (hlist ▸ List.mem_cons_self)]

/-- The numeral of an integer is read as this integer, unless it is too long. -/
theorem readInt_ofInt_eq (n : Int) :
    readInt (ofInt n) = if digitLimit < (Nat.toDigits 10 n.natAbs).length then
      .error (.tooLong (Nat.toDigits 10 n.natAbs).length) else .ok n := by
  rw [readInt, dropWhile_isPadding_ofInt]
  cases n with
  | ofNat n =>
    rcases List.exists_cons_of_ne_nil (toList_ofNat n ▸ Nat.toDigits_ne_nil) with ⟨c, rest, hlist⟩
    have hc : c.isDigit = true := isDigit_of_mem_ofNat (hlist ▸ List.mem_cons_self)
    have hminus : c ≠ '-' := by
      rintro rfl
      exact absurd hc (by decide)
    have hplus : c ≠ '+' := by
      rintro rfl
      exact absurd hc (by decide)
    have hrun := readRun_ofNat n
    rw [hlist] at hrun
    simp [ofInt, hlist, hminus, hplus, hrun]
  | negSucc n =>
    simp only [toList_ofInt_negSucc, readRun_ofNat]
    rfl

/-- An integer with few enough digits is read from its numeral. -/
theorem readInt_ofInt {n : Int} (h : (Nat.toDigits 10 n.natAbs).length ≤ digitLimit) :
    readInt (ofInt n) = .ok n := by
  rw [readInt_ofInt_eq, if_neg (by omega)]

/-- Nothing but the integer itself is read from its numeral. -/
theorem eq_of_readInt_ofInt {m n : Int} (h : readInt (ofInt n) = .ok m) : m = n := by
  rw [readInt_ofInt_eq] at h
  split at h
  · cases h
  · exact (Except.ok.inj h).symm

end Text

/-- An id without its marks is the text behind the first one exactly if this text has no mark. -/
theorem Store.plainId_mark_iff (text : String) :
    plainId (idMark ++ text) = text ↔ Text.within idMark text = false := by
  have hplain : (plainId (idMark ++ text)).toList =
      Text.replaceFrom idMark.toList [] 0 text.toList := by
    rw [plainId, Text.replace, String.toList_ofList, String.toList_append]
    exact Text.replaceFrom_append 'h' ['t', 'm', 'l', '_'] [] text.toList
  rw [← String.toList_inj, hplain, Text.within]
  cases h : Text.occursIn idMark.toList text.toList with
  | false => simp [Text.replaceFrom_of_not_occursIn h]
  | true =>
    have hshorter := Text.length_replaceFrom_lt (by decide) h
    simp only [Bool.true_eq_false, iff_false]
    intro heq
    rw [heq] at hshorter
    exact Nat.lt_irrefl _ hshorter

/-- Without the mark, the id of a page function is its numeral. -/
theorem Store.plainId_mark (n : Int) : plainId (idMark ++ Text.ofInt n) = Text.ofInt n := by
  rw [plainId_mark_iff, Text.within, ← Bool.not_eq_true, Text.occursIn_iff]
  intro hmark
  have hh : 'h' ∈ (Text.ofInt n).toList := hmark.subset (by decide)
  exact absurd (Text.eq_minus_or_isDigit_of_mem_ofInt hh) (by decide)

end JavaDeps
