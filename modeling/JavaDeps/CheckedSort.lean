/-!
# Sorting with comparisons that can fail

A list is sorted by comparisons, and the first comparison that fails ends the sorting. Which
elements are compared is part of the rule: the elements at the front that ascend, or strictly
descend, are found first, and every further element is then put among those before it by halving.
-/

namespace JavaDeps.CheckedSort

variable {ε α : Type}

/-- The elements that go on with a run after the element `last`, and the others. A run ends where
the comparison of an element with the one before it does not give `down`. -/
def continueRun (before : α → α → Except ε Bool) (down : Bool) (last : α) :
    List α → Except ε (List α × List α)
  | [] => .ok ([], [])
  | x :: rest => do
    if (← before x last) == down then
      let (run, others) ← continueRun before down x rest
      return (x :: run, others)
    else return ([], x :: rest)

/-- The elements at the front that are in order, and the others. A descending run is turned round.
-/
def leadingRun (before : α → α → Except ε Bool) : List α → Except ε (List α × List α)
  | [] => .ok ([], [])
  | [x] => .ok ([x], [])
  | x :: y :: rest => do
    let down ← before y x
    let (run, others) ← continueRun before down y rest
    return (if down then (x :: y :: run).reverse else x :: y :: run, others)

/-- The place of an element in a sorted list, between two places: behind all elements that do not
come after it. The first number bounds the halvings. -/
def position (before : α → α → Except ε Bool) (x : α) (sorted : List α) :
    Nat → Nat → Nat → Except ε Nat
  | 0, low, _ => .ok low
  | bound + 1, low, high =>
    if low < high then
      let middle := low + (high - low) / 2
      match sorted[middle]? with
      | none => .ok low
      | some y => do
        if ← before x y then position before x sorted bound low middle
        else position before x sorted bound (middle + 1) high
    else .ok low

/-- Puts further elements into a sorted list, one after the other. -/
def insertAll (before : α → α → Except ε Bool) : List α → List α → Except ε (List α)
  | sorted, [] => .ok sorted
  | sorted, x :: rest => do
    let n ← position before x sorted (sorted.length + 1) 0 sorted.length
    insertAll before (sorted.take n ++ x :: sorted.drop n) rest

/-- The elements of a list in order, or the failure of the first comparison that fails. -/
def sort (before : α → α → Except ε Bool) (xs : List α) : Except ε (List α) := do
  let (run, others) ← leadingRun before xs
  insertAll before run others

end JavaDeps.CheckedSort
