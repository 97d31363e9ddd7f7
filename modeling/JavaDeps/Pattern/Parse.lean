import JavaDeps.Pattern.Match
import JavaDeps.Pattern.Read

/-!
# Patterns given as text

A written pattern means a pattern once the switches are known.

The file defines:
- `Member.accepts`, the characters of a set;
- `Written.meaning`, the pattern that a written one means;
- `Written.opening` and `Written.firstCheck`, what the first character of a match has to fulfil;
- `Pattern.parse`, the pattern that a text denotes.
-/

namespace JavaDeps.Pattern

def Switch.letters (switches : Switches) : Text.LetterCase :=
  if !switches.contains .anyCase then .exact
  else if switches.contains .ascii then .ascii
  else .any

def CharClass.accepts (ascii : Bool) : CharClass → Char → Bool
  | digit, c => if ascii then Text.isAsciiDigit c else Text.isDigit c
  | blank, c => if ascii then isSpacing c else Text.isBlank c
  | word, c => if ascii then isAsciiWord c else Text.isWordChar c

def wideCode : Nat := 0x10000

/-- Whether a character counts as the letter with the given code. -/
def fitsCode (letters : Text.LetterCase) (n : Nat) (c : Char) : Bool :=
  (letters.variants c).any (fun d => d.toNat == n)

/-- Whether a character is a member of a set. A letter with a wide code that stands in a set for
itself is only found in its lower-case form when case is ignored, and a range with a wide end also
holds the small letters of its capitals when only the case of ASCII letters is ignored. -/
def Member.accepts (letters : Text.LetterCase) (ascii : Bool) : Member → Char → Bool
  | code n, c =>
    if wideCode ≤ n then (letters.lower c).toNat == n else fitsCode letters n c
  | range low high, c =>
    let capital := if letters == .ascii && wideCode ≤ high then Text.capital? c else none
    (letters.variants c ++ capital.toList).any (fun d => low ≤ d.toNat && d.toNat ≤ high)
  | cls k negative, c => k.accepts ascii c != negative

def setAccepts (letters : Text.LetterCase) (ascii : Bool) : List Member → Char → Bool
  | [.code n], c => fitsCode letters n c
  | members, c => members.any (fun m => m.accepts letters ascii c)

def Place.meaning (switches : Switches) : Place → Anchor
  | start => if switches.contains .lines then .lineStart else .textStart
  | finish => if switches.contains .lines then .lineEnd else .lastLineEnd
  | textStart => .textStart
  | textEnd => .textEnd
  | wordEdge => if switches.contains .ascii then .asciiWordEdge else .wordEdge
  | notWordEdge => if switches.contains .ascii then .notAsciiWordEdge else .notWordEdge

def behindBound : Nat := 4294967295

def Width.behind (w : Width) : Except PatternError Nat :=
  if behindBound < w.least then .error .tooWide
  else if w.least != w.most then .error .severalWidths
  else .ok w.least

/-- The pattern that a written pattern means under the switches. -/
def Written.meaning (switches : Switches) : Written → Except PatternError Pattern
  | empty => .ok .empty
  | code n =>
    let letters := Switch.letters switches
    .ok (.one (fun c => fitsCode letters n c))
  | any => .ok (.one (if switches.contains .dotAll then fun _ => true else (· != '\n')))
  | set negative members =>
    let letters := Switch.letters switches
    let ascii := switches.contains .ascii
    .ok (.one (fun c => setAccepts letters ascii members c != negative))
  | place p => .ok (.anchor (p.meaning switches))
  | seq p q => do return .seq (← p.meaning switches) (← q.meaning switches)
  | alt p q => do return .alt (← p.meaning switches) (← q.meaning switches)
  | rep p least most greed => do return .rep (← p.meaning switches) least most greed
  | group index p => do return .group index (← p.meaning switches)
  | switched on off p => p.meaning (Switch.change switches on off)
  | atomic p => do return .atomic (← p.meaning switches)
  | back index _ => .ok (.back index (Switch.letters switches))
  | ahead positive p => do return .ahead positive (← p.meaning switches)
  | behind positive p => do
    let width ← p.width.behind
    return .behind positive width (← p.meaning switches)
  | ifGroup index p q => do return .ifGroup index (← p.meaning switches) (← q.meaning switches)

/-! ## The first character -/

/-- Whether a member of a set holds a letter that has several forms. A range with a wide end counts
as holding one. -/
def Member.hasForms (letters : Text.LetterCase) : Member → Bool
  | code n => 1 < (letters.variants (Char.ofNat n)).length
  | range low high => letters != .exact && (wideCode ≤ high
      || (List.range (high + 1 - low)).any (fun i =>
        1 < (letters.variants (Char.ofNat (low + i))).length))
  | cls _ _ => false

/-- The set with which a written pattern starts, and the switches that are on there. -/
def Written.opening (switches : Switches) : Written → Option (Switches × Bool × List Member)
  | set negative members => some (switches, negative, members)
  | seq p _ => p.opening switches
  | group _ p => p.opening switches
  | switched on off p => p.opening (Switch.change switches on off)
  | _ => none

/-- What the first character of a match has to fulfil beside the pattern. A set in front whose group
has another alphabet than the whole pattern has to hold the character in both alphabets, unless
letters in the set have several forms. -/
def Written.firstCheck (switches : Switches) (p : Written) : Option (Char → Bool) :=
  match p.opening switches with
  | none => none
  | some (inner, negative, members) =>
    let ascii := switches.contains .ascii
    if inner.contains .ascii == ascii || members.any (·.hasForms (Switch.letters inner)) then none
    else some (fun c => setAccepts .exact ascii members c != negative)

/-- The pattern that a text denotes when a text is searched for it, with some switches on. -/
def parse (switches : Switches) (text : String) : Except PatternError Pattern := do
  let (written, switches) ← Written.read switches text.toList
  let pattern ← written.meaning switches
  match written.firstCheck switches with
  | some check => return .seq (.ahead true (.one check)) pattern
  | none => return pattern

end JavaDeps.Pattern
