import JavaDeps.Proofs.Pages.Numerals

/-!
# Databases

What the table of page functions relies on in the database that keeps it, and two databases: one
with a column of integers as ids, and one with a column of texts.
-/

namespace JavaDeps

/-- The id `COALESCE(MAX(function_id), 0) + 1`: the one after the largest, or one without ids. -/
def idAfter (ids : List Int) : Int := ids.max?.getD 0 + 1

/-- The next id is larger than all ids so far. -/
theorem lt_idAfter {ids : List Int} {n : Int} (h : n ∈ ids) : n < idAfter ids := by
  unfold idAfter
  cases hmax : ids.max? with
  | none => simp [List.max?_eq_none_iff.1 hmax] at h
  | some m => exact Int.lt_add_one_of_le ((List.max?_eq_some_iff.1 hmax).2 n h)

theorem idAfter_not_mem (ids : List Int) : idAfter ids ∉ ids :=
  fun h => Int.lt_irrefl _ (lt_idAfter h)

theorem idAfter_append (ids : List Int) : idAfter (ids ++ [idAfter ids]) = idAfter ids + 1 := by
  have hmax : (ids ++ [idAfter ids]).max? = some (idAfter ids) := by
    refine List.max?_eq_some_iff.2 ⟨by simp, fun n hn => ?_⟩
    rcases List.mem_append.1 hn with hn | hn
    · exact Int.le_of_lt (lt_idAfter hn)
    · exact Int.le_of_eq (List.mem_singleton.1 hn)
  rw [idAfter, hmax]
  rfl

namespace Engine

/-- The numeral of the integer can be compared with ids, and equals no other integer. -/
def Finds (e : Engine) (n : Int) : Prop :=
  ∃ same, e.equals (Text.ofInt n) = .ok same ∧ ∀ m, same (.int m) = decide (m = n)

/-- How a database with a column of integers behaves: unless it refuses to, it gives the next id by
the largest one; an id that it takes is a value of the column, so it can be compared; and closing a
connection does not fail. -/
structure Counts (e : Engine) : Prop where
  nextId : ∀ ids n, e.nextId (ids.map .int) = .ok n → n = idAfter ids
  finds : ∀ rows r n, r.id = .int n → e.insert rows r = .ok () → e.Finds n
  closes : e.close = .ok ()

end Engine

/-- The database compares the ids of the table with texts as they read: with the text of another id
of the table, and with any text if the id is not an integer, whose numeral may be written in several
ways. -/
structure FunctionTable.Compares (t : FunctionTable) : Prop where
  ids : ∀ r ∈ t.rows, ∃ same, t.engine.equals r.id.display = .ok same ∧
    ∀ r' ∈ t.rows, same r'.id = (r'.id.display == r.id.display)
  texts : ∀ r ∈ t.rows, (∀ n, r.id ≠ .int n) → ∀ text same, t.engine.equals text = .ok same →
    same r.id = (r.id.display == text)
  closes : t.engine.close = .ok ()

/-! ## Two databases -/

def isNumeral (text : String) : Bool :=
  match text.toList with
  | '-' :: digits => !digits.isEmpty && digits.all Char.isDigit
  | digits => !digits.isEmpty && digits.all Char.isDigit

namespace Engine

/-- A database with a column of integers as ids. Only numerals can be compared with it. -/
def numbers : Engine where
  equals text :=
    if isNumeral text then .ok (fun id => id.display == text)
    else .error (.badStatement "invalid input syntax for type integer")
  nextId ids := .ok (idAfter (ids.filterMap (fun id => match id with
    | .int n => some n
    | _ => none)))
  insert _ _ := .ok ()
  delete _ := .ok ()
  commit _ := .ok ()
  close := .ok ()
  columnType name := if name == "function_id" then "integer" else "character varying"

/-- A database with a column of texts as ids, which have no sum with one. -/
def texts : Engine where
  equals text := .ok (fun id => id.display == text)
  nextId _ :=
    .error (.badStatement "COALESCE types character varying and integer cannot be matched")
  insert _ _ := .ok ()
  delete _ := .ok ()
  commit _ := .ok ()
  close := .ok ()
  columnType _ := "character varying"

theorem isNumeral_ofInt (n : Int) : isNumeral (Text.ofInt n) = true := by
  have hdigits : ∀ k : Nat, (!(Text.ofNat k).toList.isEmpty &&
      (Text.ofNat k).toList.all Char.isDigit) = true := by
    intro k
    have hne : (Text.ofNat k).toList ≠ [] := by
      rw [Text.toList_ofNat]
      exact Nat.toDigits_ne_nil
    simpa [hne] using fun c hc => Text.isDigit_of_mem_ofNat hc
  cases n with
  | ofNat k =>
    unfold isNumeral
    split
    · rename_i digits h
      exact absurd h (Text.ofNat_ne_minus_cons k digits)
    · exact hdigits k
  | negSucc k =>
    unfold isNumeral
    rw [Text.toList_ofInt_negSucc]
    exact hdigits (k + 1)

/-- Among numbers an integer is found by its numeral. -/
theorem numbers_finds (n : Int) : numbers.Finds n := by
  refine ⟨fun id => id.display == Text.ofInt n, if_pos (isNumeral_ofInt n), fun m => ?_⟩
  show (Text.ofInt m == Text.ofInt n) = decide (m = n)
  rw [Bool.beq_eq_decide_eq]
  exact decide_eq_decide.2 ⟨Text.ofInt_injective, fun h => congrArg Text.ofInt h⟩

/-- Among numbers the ids count upwards. -/
theorem numbers_counts : numbers.Counts where
  nextId ids n h := by
    cases h
    rw [List.filterMap_map]
    exact congrArg idAfter List.filterMap_some
  finds _ _ n _ _ := numbers_finds n
  closes := rfl

/-- A database with texts as ids compares them as they read. -/
theorem texts_compares (columns : List String) (rows : List FunctionRow) :
    FunctionTable.Compares ⟨columns, rows, texts⟩ where
  ids r _ := ⟨fun id => id.display == r.id.display, rfl, fun _ _ => rfl⟩
  texts r _ _ text same h := by
    cases h
    rfl
  closes := rfl

end Engine

end JavaDeps
