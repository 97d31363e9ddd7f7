import JavaDeps.Disk
import JavaDeps.Proofs.Except

/-!
# Written files

What can be written, and what is found afterwards.
-/

namespace JavaDeps

namespace Disk

variable {d e : Disk} {path root : String} {place names : List String} {p q : SourcePath}

/-! ## Writing -/

theorem write_of_locate (h : d.locate path = .ok p) (c : Content) :
    d.write path c = if Text.ends path "/" || d.holdsDirectory p then .error (.isDirectory path)
      else .ok ⟨d.entries.set p c⟩ := by
  rw [write, h]
  rfl

/-- A file can be written at a path: the path leads to a place, and no directory is there. -/
def Takes (d : Disk) (path : String) : Prop :=
  ∃ p, d.locate path = .ok p ∧ Text.ends path "/" = false ∧ d.holdsDirectory p = false

/-- What is written stands where the path leads. -/
theorem write_eq_ok {c : Content} (h : d.write path c = .ok e) :
    ∃ p, d.locate path = .ok p ∧ Text.ends path "/" = false ∧ d.holdsDirectory p = false ∧
      e = ⟨d.entries.set p c⟩ := by
  rcases bind_eq_ok h with ⟨p, hp, h⟩
  split at h
  · cases h
  · rename_i hfree
    rw [Bool.or_eq_true, not_or, Bool.not_eq_true, Bool.not_eq_true] at hfree
    cases h
    exact ⟨p, hp, hfree.1, hfree.2, rfl⟩

/-- A path that leads to no directory can be written to. -/
theorem write_ok_iff (c : Content) : (∃ e, d.write path c = .ok e) ↔ d.Takes path := by
  constructor
  · rintro ⟨e, h⟩
    rcases write_eq_ok h with ⟨p, hp, hends, hfree, -⟩
    exact ⟨p, hp, hends, hfree⟩
  · rintro ⟨p, hp, hends, hfree⟩
    refine ⟨⟨d.entries.set p c⟩, ?_⟩
    rw [write_of_locate hp, hends, hfree]
    rfl

/-! ## Finding what was written -/

theorem holdsDirectory_set_of_ne (c : Content) (h : p ≠ q) :
    holdsDirectory ⟨d.entries.set p c⟩ q = d.holdsDirectory q := by
  simp [holdsDirectory, Table.get?_set, h]

theorem holdsDirectory_set_self {c : Content} (hc : c ≠ .directory)
    (h : d.holdsDirectory p = false) :
    holdsDirectory ⟨d.entries.set p c⟩ p = false := by
  rw [holdsDirectory, Bool.or_eq_false_iff] at h
  rw [holdsDirectory, Bool.or_eq_false_iff, Table.get?_set]
  exact ⟨h.1, by simpa using hc⟩

/-- The way to a place without a directory does not lead through that place, so that a file there
does not stand in the way. -/
theorem follow_set (c : Content) (hp : d.holdsDirectory p = false)
    (h : d.follow path root place names = .ok p) :
    follow ⟨d.entries.set p c⟩ path root place names = .ok p := by
  induction names generalizing place with
  | nil => exact h
  | cons name rest ih =>
    rw [follow] at h ⊢
    cases hhere : d.holdsDirectory ⟨root, place.reverse⟩ with
    | false =>
      rw [hhere] at h
      cases h
    | true =>
      have hne : p ≠ ⟨root, place.reverse⟩ := by
        rintro rfl
        rw [hp] at hhere
        cases hhere
      rw [hhere] at h
      rw [holdsDirectory_set_of_ne c hne, hhere]
      -- The two sides now branch on the name in the same way.
      by_cases hdot : (name == ".") = true
      · simp only [hdot, Bool.not_true, Bool.false_eq_true, if_false, if_true] at h ⊢
        exact ih h
      · by_cases hdots : (name == "..") = true
        · simp only [hdot, hdots, Bool.not_true, Bool.false_eq_true, if_false, if_true] at h ⊢
          exact ih h
        · by_cases hlong : nameLimit < name.utf8ByteSize
          · simp [hdot, hdots, hlong] at h
          · simp only [hdot, hdots, hlong, Bool.not_true, Bool.false_eq_true, if_false] at h ⊢
            exact ih h

/-- Writing a file does not change where paths lead. -/
theorem locate_set (c : Content) (hp : d.holdsDirectory p = false) (h : d.locate path = .ok p) :
    locate ⟨d.entries.set p c⟩ path = .ok p := by
  unfold locate at h ⊢
  split at h
  · cases h
  · rename_i hzero
    split at h
    · cases h
    · rename_i hempty
      split at h
      · cases h
      · rename_i hlong
        rw [if_neg hzero, if_neg hempty, if_neg hlong]
        exact follow_set c hp h

theorem find_of_locate (h : d.locate path = .ok p) (hp : d.holdsDirectory p = false) :
    d.find path = match d.entries.get? p with
      | none => .error (.noFile path)
      | some c => if Text.ends path "/" then .error (.notDirectory path) else .ok c := by
  simp only [find, h, bind, Except.bind, hp, Bool.false_eq_true, if_false]
  rfl

/-- A file that was written is found, with what was written. -/
theorem find_of_write {c : Content} (hc : c ≠ .directory) (h : d.write path c = .ok e) :
    e.find path = .ok c := by
  rcases write_eq_ok h with ⟨p, hp, hends, hfree, rfl⟩
  rw [find_of_locate (locate_set c hfree hp) (holdsDirectory_set_self hc hfree), Table.get?_set]
  simp [hends]

/-- There is no text where nothing is found. -/
theorem readText_of_exists? (h : d.exists? p ≠ .ok true) : ∃ f, d.readText p = .error f := by
  unfold exists? at h
  unfold readText
  cases hfound : d.find p.toText with
  | ok c =>
    rw [hfound] at h
    exact absurd rfl h
  | error f => exact ⟨f, rfl⟩

end Disk

end JavaDeps
