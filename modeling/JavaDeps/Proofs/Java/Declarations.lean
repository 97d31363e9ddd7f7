import JavaDeps.Java.Declaration
import JavaDeps.Proofs.Java.Calls

/-!
# Spellings of what is declared

The file shows how the names are spelled that a text is found to declare: a type starts with a
capital letter and goes on with characters of names, and the name of a package consists of
characters of names and dots.
-/

namespace JavaDeps.Java

open Pattern

/-- Declared types are names with a capital first letter. -/
theorem isName_of_mem_declaredTypes {text : List Char} {name : String}
    (h : name ∈ declaredTypes text) : IsName isCapital name.toList :=
  reads_name.1 (reads_captures1 rfl rfl h)

def isPackageChar (c : Char) : Bool := isNameChar c || c == '.'

theorem packageName?_spelled {text : List Char} {name : String}
    (h : packageName? text = some name) :
    ∀ c ∈ name.toList, isPackageChar c = true := by
  have hstraight : packageClause.straight? 0 = some 1 := rfl
  rcases Option.map_eq_some_iff.1 h with ⟨f, hf, rfl⟩
  rcases fits_of_find? hstraight hf with ⟨before, piece, rest, -, hfits⟩
  rcases hfits.reads_group List.mem_cons_self with ⟨_, rest, heq, ⟨x, hx, rfl⟩, hrest⟩
  rw [heq]
  intro c hc
  rcases List.mem_cons.1 hc with rfl | hc
  · have hname : isNameChar c = true := by
      simp only [isNameStart, isNameChar, Bool.or_eq_true] at hx ⊢
      rcases hx with hx | hx
      · exact Or.inl (Or.inl hx)
      · exact Or.inr hx
    simp [isPackageChar, hname]
  · exact reads_many.1 hrest c hc

end JavaDeps.Java
