import JavaDeps.Ranked

/-!
# Sorted sets

A finite set whose members are listed in ascending order of their ranks.

The file defines `SortedSet`, with `insert`, `erase`, `contains` and the view `toList`.
-/

namespace JavaDeps

/-- A finite set, listed in ascending order. -/
structure SortedSet (α : Type) [Ranked α] where
  members : List α
  ascending : Ascending Ranked.before members := by decide
  deriving DecidableEq

abbrev NameSet := SortedSet String

namespace SortedSet

variable {α : Type} [Ranked α]

def empty : SortedSet α := ⟨[], List.Pairwise.nil⟩

instance : Inhabited (SortedSet α) := ⟨empty⟩

def toList (s : SortedSet α) : List α := s.members

def size (s : SortedSet α) : Nat := s.members.length

def isEmpty (s : SortedSet α) : Bool := s.members.isEmpty

def filter (p : α → Bool) (s : SortedSet α) : SortedSet α :=
  ⟨s.members.filter p, s.ascending.sublist List.filter_sublist⟩

section

variable [BEq α]

def contains (s : SortedSet α) (x : α) : Bool := s.members.any (· == x)

def erase (s : SortedSet α) (x : α) : SortedSet α := s.filter (fun y => !(y == x))

def insert (s : SortedSet α) (x : α) : SortedSet α :=
  if s.contains x then s
  else ⟨insertSorted Ranked.before x s.members, s.ascending.insertSorted (strictWeak_ranked α) x⟩

def insertAll (s : SortedSet α) (xs : List α) : SortedSet α := xs.foldl insert s

def ofList (xs : List α) : SortedSet α := empty.insertAll xs

end

/-- Sets with the same members are the same. -/
theorem ext {s s' : SortedSet α} (h : s.members = s'.members) : s = s' := by
  cases s
  cases s'
  cases h
  rfl

end SortedSet

end JavaDeps
