import JavaDeps.Pattern.Basic

/-!
# Matching

A pattern is run with a continuation: `run p k c` tries the ways in which `p` can read on from the
place `c`, in the order that the pattern fixes, and gives the first answer of `k` at the place that
is reached. A way that the continuation refuses is given up for the next one.

While a pattern is run, the starts and ends of its groups are marked. A way that is given up inside
a repetition takes all its marks with it. Outside of repetitions only those marks are taken back
that come after the ones set before; this makes a difference where the rounds of a possessive
repetition mark a group again.
-/

namespace JavaDeps

/-- What is marked of a group: the text from its start on, the place of its start, and the place of
its end. While a group is read again, its end is still that of the round before. -/
structure Capture where
  source : List Char
  start : Nat
  stop : Option Nat

/-- The captured text, when the end does not lie before the start. -/
def Capture.text? (c : Capture) : Option (List Char) :=
  match c.stop with
  | some stop => if c.start ≤ stop then some (c.source.take (stop - c.start)) else none
  | none => none

def Capture.isReversed (c : Capture) : Bool :=
  match c.stop with
  | some stop => decide (stop < c.start)
  | none => false

/-- The marks of groups, the latest first. No group is listed twice. -/
abbrev Marks := List (Nat × Capture)

namespace Marks

def mark (marks : Marks) (index : Nat) (capture : Capture) : Marks :=
  (index, capture) :: marks.filter (fun m => m.1 != index)

/-- How many marks there are up to the last one that is set. The group with number `n` has the marks
with numbers `2 * n - 1` and `2 * n`, for its start and its end. -/
def reach (marks : Marks) : Nat :=
  marks.foldl (fun n m => max n (if m.2.stop.isSome then 2 * m.1 else 2 * m.1 - 1)) 0

/-- The marks that a way leaves behind when it is given up: those that come after the marks set
before are taken back. -/
def leftBehind (before left : Marks) : Marks :=
  let reach := before.reach
  left.filterMap (fun m =>
    if reach < 2 * m.1 - 1 then none
    else if reach < 2 * m.1 then some (m.1, { m.2 with stop := none })
    else some m)

/-- The marks after a way was given up. Inside a repetition they are those set before. -/
def restore (inside : Bool) (before left : Marks) : Marks :=
  if inside then before else leftBehind before left

def anyReversed (marks : Marks) : Bool :=
  marks.any (fun m => m.2.isReversed)

end Marks

/-- A place in a text: what stands before it in reverse, what comes after it, how many characters
are before it, and the marks set so far. -/
structure Cursor where
  before : List Char
  after : List Char
  pos : Nat
  marks : Marks

namespace Cursor

def start (text : List Char) : Cursor := ⟨[], text, 0, []⟩

def capture? (c : Cursor) (index : Nat) : Option (List Char) :=
  (c.marks.lookup index).bind Capture.text?

/-- The text of a group, empty when the group took no part in the match. -/
def group (c : Cursor) (index : Nat) : String := String.ofList ((c.capture? index).getD [])

def group? (c : Cursor) (index : Nat) : Option String := (c.capture? index).map String.ofList

def openGroup (c : Cursor) (index : Nat) : Cursor :=
  let stop := (c.marks.lookup index).bind Capture.stop
  { c with marks := Marks.mark c.marks index ⟨c.after, c.pos, stop⟩ }

def closeGroup (c : Cursor) (index : Nat) : Cursor :=
  match c.marks.lookup index with
  | some opened => { c with marks := Marks.mark c.marks index { opened with stop := some c.pos } }
  | none => c

def back? : Nat → Cursor → Option Cursor
  | 0, c => some c
  | n + 1, c => match c.before with
    | [] => none
    | x :: rest => back? n { c with before := rest, after := x :: c.after, pos := c.pos - 1 }

/-- Whether exactly one side of the place is a character of the class. -/
def atEdge (isWord : Char → Bool) (c : Cursor) : Bool :=
  let left := match c.before with
    | [] => false
    | x :: _ => isWord x
  let right := match c.after with
    | [] => false
    | x :: _ => isWord x
  left != right

def expect? (letters : Text.LetterCase) : List Char → Cursor → Option Cursor
  | [], c => some c
  | x :: rest, c => match c.after with
    | [] => none
    | y :: after =>
      if letters.lower x == letters.lower y then
        expect? letters rest { c with before := y :: c.before, after := after, pos := c.pos + 1 }
      else none

end Cursor

def isAsciiWord (c : Char) : Bool :=
  Text.isAsciiLetter c || Text.isAsciiDigit c || c == '_'

/-- Whether a place is inside or outside a word. There is none in an empty text. -/
def Cursor.offEdge (isWord : Char → Bool) (c : Cursor) : Bool :=
  !(c.before.isEmpty && c.after.isEmpty) && !c.atEdge isWord

def Anchor.holds (a : Anchor) (c : Cursor) : Bool :=
  match a with
  | .textStart => c.before.isEmpty
  | .textEnd => c.after.isEmpty
  | .lineStart => match c.before with
    | [] => true
    | x :: _ => x == '\n'
  | .lineEnd => match c.after with
    | [] => true
    | x :: _ => x == '\n'
  | .lastLineEnd => match c.after with
    | [] => true
    | [x] => x == '\n'
    | _ => false
  | .wordEdge => c.atEdge Text.isWordChar
  | .notWordEdge => c.offEdge Text.isWordChar
  | .asciiWordEdge => c.atEdge isAsciiWord
  | .notAsciiWordEdge => c.offEdge isAsciiWord

namespace Pattern

/-- What running a pattern gives: the place that the continuation answered with, or the marks that
were set when the last way failed. -/
inductive Outcome where
  | found (c : Cursor)
  | lost (marks : Marks)

def Outcome.found? : Outcome → Option Cursor
  | found c => some c
  | lost _ => none

abbrev Continuation := Cursor → Outcome

/-- A greedy repetition of one class of characters: the longest run first, then shorter ones down
to `least` characters. -/
def greedyRun (accepts : Char → Bool) (inside : Bool) (k : Continuation) (marks : Marks) :
    Nat → Option Nat → List Char → Nat → List Char → Outcome
  | least, _, before, pos, [] => if least == 0 then k ⟨before, [], pos, marks⟩ else .lost marks
  | least, most, before, pos, c :: rest =>
    let stop (left : Marks) : Outcome :=
      if least == 0 then k ⟨before, c :: rest, pos, left⟩ else .lost left
    if most != some 0 && accepts c then
      match greedyRun accepts inside k marks (least - 1) (most.map (· - 1)) (c :: before) (pos + 1)
          rest with
      | .found d => .found d
      | .lost left => stop (Marks.restore inside marks left)
    else stop marks

/-- A lazy repetition of one class of characters: `least` characters first, then longer runs. -/
def lazyRun (accepts : Char → Bool) (inside : Bool) (k : Continuation) :
    Marks → Nat → Option Nat → List Char → Nat → List Char → Outcome
  | marks, least, _, before, pos, [] =>
    if least == 0 then k ⟨before, [], pos, marks⟩ else .lost marks
  | marks, least, most, before, pos, c :: rest =>
    match (if least == 0 then k ⟨before, c :: rest, pos, marks⟩ else .lost marks) with
    | .found d => .found d
    | .lost left =>
      let marks := Marks.restore inside marks left
      if most != some 0 && accepts c then
        lazyRun accepts inside k marks (least - 1) (most.map (· - 1)) (c :: before) (pos + 1) rest
      else .lost marks

/-- A repetition of `step`. `least` and `most` count what is still required and allowed, and `last`
is where the previous optional round began: a round that did not move ends the repetition. `inside`
tells whether the repetition itself stands in one, and the first number bounds the rounds. -/
def loop (step : Continuation → Continuation) (isLazy inside : Bool) (k : Continuation) :
    Nat → Nat → Option Nat → Option Nat → Continuation
  | 0, _, _, _, c => .lost c.marks
  | rounds + 1, least, most, last, c =>
    if least != 0 then step (loop step isLazy inside k rounds (least - 1) (most.map (· - 1)) last) c
    else
      let more (marks : Marks) : Outcome :=
        if most == some 0 || last == some c.pos then .lost marks
        else step (loop step isLazy inside k rounds 0 (most.map (· - 1)) (some c.pos))
          { c with marks := marks }
      if isLazy then
        match k c with
        | .found d => .found d
        | .lost left => more (Marks.restore inside c.marks left)
      else
        match more c.marks with
        | .found d => .found d
        | .lost _ => k c

/-- A possessive repetition of `step`: each round keeps the first way in which it succeeds, and the
repetition ends with the first round that fails. The arguments are those of `loop`. -/
def keep (step : Continuation → Continuation) : Nat → Nat → Option Nat → Option Nat → Continuation
  | 0, _, _, _, c => .lost c.marks
  | rounds + 1, least, most, last, c =>
    if least != 0 then
      match step .found c with
      | .found d => keep step rounds (least - 1) (most.map (· - 1)) last d
      | .lost left => .lost left
    else if most == some 0 || last == some c.pos then .found c
    else match step .found c with
      | .found d => keep step rounds 0 (most.map (· - 1)) (some c.pos) d
      | .lost _ => .found c

/-- A repetition that is not possessive. The first number bounds the rounds beyond the required
ones. -/
def repeatWith (bound : Nat) (body : Pattern) (step : Continuation → Continuation) (least : Nat)
    (most : Option Nat) (isLazy inside : Bool) (k : Continuation) (c : Cursor) : Outcome :=
  match body with
  | .one accepts =>
    if isLazy then lazyRun accepts inside k c.marks least most c.before c.pos c.after
    else greedyRun accepts inside k c.marks least most c.before c.pos c.after
  | _ => loop step isLazy inside k (least + bound) least most none c

/-- Tries the ways in which a pattern reads on from a place, and gives the first answer of the
continuation. `inside` tells whether the pattern stands in a repetition. The number bounds the
rounds of every repetition; as each optional round moves on, two more than the length of the text
are enough. -/
def run (bound : Nat) (inside : Bool) : Pattern → Continuation → Continuation
  | .empty, k, c => k c
  | .one accepts, k, c => match c.after with
    | [] => .lost c.marks
    | x :: rest =>
      if accepts x then k { c with before := x :: c.before, after := rest, pos := c.pos + 1 }
      else .lost c.marks
  | .seq p q, k, c => run bound inside p (fun d => run bound inside q k d) c
  | .alt p q, k, c => match run bound inside p k c with
    | .found d => .found d
    | .lost left => run bound inside q k { c with marks := Marks.restore inside c.marks left }
  | .rep p least most greed, k, c => match greed with
    | .greedy => repeatWith bound p (fun k' d => run bound true p k' d) least most false inside k c
    | .lazy => repeatWith bound p (fun k' d => run bound true p k' d) least most true inside k c
    | .possessive =>
      match keep (fun k' d => run bound inside p k' d) (least + bound) least most none c with
      | .found d => k d
      | .lost left => .lost left
  | .group index p, k, c =>
    run bound inside p (fun d => k (d.closeGroup index)) (c.openGroup index)
  | .back index letters, k, c => match c.capture? index with
    | none => .lost c.marks
    | some text => match c.expect? letters text with
      | some d => k d
      | none => .lost c.marks
  | .anchor place, k, c => if place.holds c then k c else .lost c.marks
  | .ahead positive p, k, c => match run bound inside p .found c with
    | .found d => if positive then k { c with marks := d.marks } else .lost d.marks
    | .lost left =>
      if positive then .lost left else k { c with marks := Marks.restore inside c.marks left }
  | .behind positive width p, k, c => match Cursor.back? width c with
    | none => if positive then .lost c.marks else k c
    | some b => match run bound inside p .found b with
      | .found d => if positive then k { c with marks := d.marks } else .lost d.marks
      | .lost left =>
        if positive then .lost left else k { c with marks := Marks.restore inside c.marks left }
  | .atomic p, k, c => match run bound inside p .found c with
    | .found d => k d
    | .lost left => .lost left
  | .ifGroup index p q, k, c =>
    if (c.capture? index).isSome then run bound inside p k c else run bound inside q k c

/-! ## Searching -/

/-- A match: where it starts and the place where it ends, with its marks. -/
structure Found where
  start : Nat
  stop : Cursor

/-- The number that bounds the rounds of repetitions in a text. -/
def roundBound (text : List Char) : Nat := text.length + 2

def findFrom (bound : Nat) (p : Pattern) : List Char → Nat → List Char → Option Found
  | before, pos, [] =>
    (run bound false p .found ⟨before, [], pos, []⟩).found?.map (Found.mk pos)
  | before, pos, c :: rest => match run bound false p .found ⟨before, c :: rest, pos, []⟩ with
    | .found stop => some ⟨pos, stop⟩
    | .lost _ => findFrom bound p (c :: before) (pos + 1) rest

def find? (p : Pattern) (text : List Char) : Option Found := findFrom (roundBound text) p [] 0 text

/-- The matches from a place on, each beginning where the one before ended. The second number bounds
how many there are. -/
def findAllFrom (bound : Nat) (p : Pattern) : Nat → List Char → Nat → List Char → List Found
  | 0, _, _, _ => []
  | count + 1, before, pos, after => match findFrom bound p before pos after with
    | none => []
    | some found =>
      let rest :=
        if found.stop.pos == found.start then
          match found.stop.after with
          | [] => []
          | c :: after =>
            findAllFrom bound p count (c :: found.stop.before) (found.stop.pos + 1) after
        else findAllFrom bound p count found.stop.before found.stop.pos found.stop.after
      found :: rest

/-- The non-overlapping matches in a text, from left to right. -/
def findAll (p : Pattern) (text : List Char) : List Found :=
  findAllFrom (roundBound text) p (text.length + 1) [] 0 text

def captures1 (p : Pattern) (text : List Char) : List String :=
  (p.findAll text).map (fun f => f.stop.group 1)

def captures2 (p : Pattern) (text : List Char) : List (String × String) :=
  (p.findAll text).map (fun f => (f.stop.group 1, f.stop.group 2))

def firstCapture? (p : Pattern) (text : List Char) : Option String :=
  (p.find? text).map (fun f => f.stop.group 1)

end Pattern

end JavaDeps
