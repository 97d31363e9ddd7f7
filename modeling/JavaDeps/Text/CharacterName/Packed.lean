import JavaDeps.Text.Ascii

/-!
# Packed names of characters

The list of names is long, so it is kept packed. Each character of it is read bit by bit. A bit is
guessed from the characters before it, and the packed text says which guesses are right: it is a
long number in which a likely bit takes little room.

Every context of a bit remembers the last bits that came after it, and for each such history it is
counted which bit came next. A guess weighs the counts of all contexts. When the bit is known, the
contexts that were right get more weight.
-/

namespace JavaDeps.Text.CharacterName

/-- A part of the list: how many characters it has, and its packed text, in lines. -/
structure Part where
  length : Nat
  packed : String

def signs : List Char :=
  ("!#$%&()*+,-./0123456789:;<=>?@ABCDEFGHIJKLMNOPQRSTUVWXYZ[]^_" ++
    "abcdefghijklmnopqrstuvwxyz|~ ").toList

def letters : List Char := "AEIOUYBCDFGHJKLMNPQRSTVWXZ-0123456789 /abcdefghijl>".toList

def startsEntry (c : Char) : Bool := isAsciiLetter c && 97 ≤ c.toNat

def isMark (c : Char) : Bool := c == '>' || c == '/' || startsEntry c

def firstWords : Nat → List Char → List Char
  | 0, _ => []
  | n + 1, name =>
    let (word, rest) := name.span (· != ' ')
    word ++ ' ' :: firstWords n (rest.drop 1)

/-! ## Contexts -/

/-- What was read of the list. -/
structure Seen where
  /-- All characters, the last one first. -/
  done : List Char
  /-- The name at hand, its last character first. -/
  name : List Char
  /-- The name before it. -/
  above : List Char

def Seen.push (seen : Seen) (c : Char) : Seen :=
  let done := c :: seen.done
  if startsEntry c then
    let above := seen.name.reverse
    ⟨done, (firstWords (c.toNat - 97) above).reverse, above⟩
  else if isMark c || seen.done.find? isMark == some '>' then { seen with done := done }
  else { seen with done := done, name := c :: seen.name }

def extend (context n : Nat) : Nat := (context + n + 1) * 40503 % 0x2000000

/-- The contexts of the next character: two and four characters before it, what stands above, the
last mark, the last word with the one above, its length with the word before, and it alone. -/
def Seen.contexts (seen : Seen) : List Nat :=
  let (word, rest) := seen.name.span (· != ' ')
  let beside := seen.above.drop (firstWords (seen.name.count ' ') seen.above).length
  let texts := [seen.done.take 2, seen.done.take 4,
    (seen.above.drop (seen.name.length - 1)).take 3 ++ seen.name.take 1,
    (seen.done.find? isMark).toList, beside.takeWhile (· != ' ') ++ ' ' :: word,
    Char.ofNat word.length :: (rest.drop 1).takeWhile (· != ' '), word]
  texts.mapIdx (fun i text => text.foldl (fun context c => extend context c.toNat) (1000 * (i + 1)))

/-! ## Guesses -/

/-- How often a bit was set, and how often it was not. -/
structure Tally where
  set : Nat
  unset : Nat

def Tally.add (t : Tally) (bit : Bool) : Tally :=
  let t : Tally := ⟨t.set + bit.toNat, t.unset + (!bit).toNat⟩
  if t.set + t.unset > 64 then ⟨t.set / 2, t.unset / 2⟩ else t

def logarithms : Array Int := (Array.range 65).map (fun n =>
  let n := 2 * n + 1
  n.log2 * 256 + (n * 256 >>> n.log2))

/-- The points for a set bit. The odds double with every 256 points. -/
def Tally.points (t : Tally) : Int := logarithms.getD t.set 0 - logarithms.getD t.unset 0

/-- The chance of a bit, of 65536, by the points for it. -/
def chanceOf (points : Int) : Nat :=
  let strength := min points.natAbs (16 * 256 - 1)
  let odds := (256 + strength % 256) <<< (strength / 256)
  let against := max 1 (65536 * 256 / (odds + 256))
  if points < 0 then against else 65536 - against

/-- What was learned from the bits so far. -/
structure Learned where
  /-- The last seven bits or less that came after a context, after a one. -/
  histories : ByteArray
  /-- What came after a history, by the kind of the context. -/
  tallies : Array Tally
  /-- The weights of the contexts, by the bits that are known of the character. -/
  weights : Array Int

def Learned.start : Learned where
  histories := Nat.repeat (·.push 1) 0x2000000 ByteArray.empty
  tallies := Array.replicate (7 * 256) ⟨0, 0⟩
  weights := Array.replicate (7 * 256) 14000

def addBit (history : Nat) (bit : Bool) : Nat :=
  let history := 2 * history + bit.toNat
  if history < 256 then history else history % 128 + 128

/-- A context of a bit: the places of its history, its tally and its weight, and the points that it
gives the bit. -/
structure Voice where
  history : Nat
  tally : Nat
  weight : Nat
  points : Int

/-- The contexts of a bit, by those of its character and what is known of it. -/
def Learned.voices (l : Learned) (known : Nat) : Nat → List Nat → List Voice
  | _, [] => []
  | kind, context :: rest =>
    let place := extend context (known % 64)
    let tally := 256 * kind + (l.histories.get! place).toNat
    ⟨place, tally, 7 * known + kind, (l.tallies.getD tally ⟨0, 0⟩).points⟩
      :: l.voices known (kind + 1) rest

def Learned.chance (l : Learned) (voices : List Voice) : Nat :=
  chanceOf (voices.foldl (fun sum v => sum + l.weights.getD v.weight 0 * v.points) 0 / 65536)

def Learned.learn (bit : Bool) (chance : Nat) : Learned → Voice → Learned
  | ⟨histories, tallies, weights⟩, v =>
    let gain := ((if bit then 65536 else 0) - chance) * v.points / 32768
    { histories := histories.set! v.history (addBit (histories.get! v.history).toNat bit).toUInt8
      tallies := tallies.modify v.tally (·.add bit)
      weights := weights.modify v.weight (· + gain) }

/-! ## Reading -/

/-- What is left of a packed text: a value within a range, and the signs that refine it. -/
structure Reader where
  range : Nat
  value : Nat
  rest : List Char

/-- A value within a range, refined by signs until the range is wide enough. -/
def Reader.refined (range value : Nat) : List Char → Reader
  | [] => ⟨range, value, []⟩
  | sign :: rest =>
    if range < 89 ^ 4 then refined (range * 89) (value * 89 + signs.idxOf sign) rest
    else ⟨range, value, sign :: rest⟩

def Reader.bit (reader : Reader) (chance : Nat) : Bool × Reader :=
  let bound := reader.range * chance / 65536
  if reader.value < bound then (true, refined bound reader.value reader.rest)
  else (false, refined (reader.range - bound) (reader.value - bound) reader.rest)

/-- Read some bits of a character. `known` has the bits before, after a one. `first` is 64 for each
of up to three characters before it in the word. -/
def readBits (contexts : List Nat) (first : Nat) :
    Nat → Nat → Reader → Learned → Nat × Reader × Learned
  | 0, known, reader, l => (known, reader, l)
  | count + 1, known, reader, l =>
    let voices := l.voices (first + known) 0 contexts
    let chance := l.chance voices
    let (bit, reader) := reader.bit chance
    readBits contexts first count (2 * known + bit.toNat) reader
      (voices.foldl (Learned.learn bit chance) l)

def readChars : Nat → Reader → Learned → Seen → Learned × Seen
  | 0, _, l, seen => (l, seen)
  | count + 1, reader, l, seen =>
    let first := 64 * ((seen.done.take 3).takeWhile (fun c => c != ' ' && !isMark c)).length
    let (known, reader, l) := readBits seen.contexts first 6 1 reader l
    readChars count reader l (seen.push (letters.getD (known - 2 ^ 6) ' '))

/-- Read a part. What was learned in the parts before goes on. -/
def readPart (state : Learned × Seen) (part : Part) : Learned × Seen :=
  readChars part.length (Reader.refined 1 0 (part.packed.toList.filter (· != '\n'))) state.1 state.2

def unpack (parts : List Part) : List Char :=
  (parts.foldl readPart (Learned.start, ⟨[], [], []⟩)).2.done.reverse

end JavaDeps.Text.CharacterName
