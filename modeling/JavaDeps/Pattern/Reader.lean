import JavaDeps.Pattern.Error
import JavaDeps.Pattern.Written

/-!
# The reader of written patterns

A text is read token by token. A token is a character, or a backslash together with the character
after it.

The file defines:
- `Token`, the tokens;
- `Reader`, what is known while a text is read, and `Read`, the steps;
- `fail`, which ends the reading with a flaw at a place;
- `reference`, the part that refers to a group.
-/

namespace JavaDeps.Pattern

/-! ## Tokens -/

/-- A character, or a character after a backslash. -/
inductive Token where
  | plain (c : Char)
  | escaped (c : Char)
  deriving DecidableEq, Repr

namespace Token

def chars : Token → List Char
  | plain c => [c]
  | escaped c => ['\\', c]

def text (t : Token) : String := String.ofList t.chars

def isPlain (accepts : Char → Bool) : Token → Bool
  | plain c => accepts c
  | escaped _ => false

end Token

/-- What the reader knows: the whole text, what is left of it and how many characters are before
that; the switches of the whole pattern; the groups with a name; the width of every group that is
closed, by its number minus one; the number of groups before the look-behind that is being read; and
the groups that conditions ask for by number, with the place of the first question. -/
structure Reader where
  text : List Char
  rest : List Char
  place : Nat := 0
  switches : Switches := []
  names : List (String × Nat) := []
  widths : List (Option Width) := []
  behind : Option Nat := none
  asked : List (Nat × Nat) := []

abbrev Read := StateT Reader (Except PatternError)

def fail {α : Type} (flaw : Flaw) (back : Nat) : Read α := fun r =>
  .error (.flawed flaw (Position.ofOffset r.text (r.place - back)))

def tokenAt : List Char → Option Token
  | [] => none
  | '\\' :: c :: _ => some (.escaped c)
  | c :: _ => some (.plain c)

def peek : Read (Option Token) := fun r => .ok (tokenAt r.rest, r)

def isNext (c : Char) : Read Bool := return (← peek) == some (.plain c)

/-- A backslash at the end of the text is a flaw as soon as it is the next token. -/
def checkEnd (r : Reader) : Except PatternError Reader :=
  if r.rest == ['\\'] then
    .error (.flawed .loneBackslash (Position.ofOffset r.text (r.text.length - 1)))
  else .ok r

def take : Read (Option Token) := fun r => match tokenAt r.rest with
  | none => .ok (none, r)
  | some t => do
    let n := t.chars.length
    let r ← checkEnd { r with rest := r.rest.drop n, place := r.place + n }
    return (some t, r)

/-- Passes over the next token if it is the given character, and tells whether it was. -/
def accept (c : Char) : Read Bool := do
  if ← isNext c then
    let _ ← take
    return true
  else return false

/-- Passes over the characters of a class, at most so many of them. -/
def takeWhile (accepts : Char → Bool) : Nat → Read (List Char)
  | 0 => return []
  | n + 1 => do
    match ← peek with
    | some (.plain c) =>
      if accepts c then
        let _ ← take
        return c :: (← takeWhile accepts n)
      else return []
    | _ => return []

def here : Read Nat := return (← get).place

def takeAll (accepts : Char → Bool) : Read (List Char) := do
  takeWhile accepts ((← get).rest.length)

/-- Reads the tokens before an end mark, and the mark. The number bounds the tokens. -/
def takeUntil (stop : Char) (what : String) : Nat → List Char → Read (List Char)
  | 0, _ => fail .unexpectedEnd 0
  | bound + 1, before => do
    match ← take with
    | none =>
      if before.isEmpty then fail (.missing what) 0
      else fail (.unterminatedName (String.ofList [stop])) before.length
    | some t =>
      if t == .plain stop then
        if before.isEmpty then fail (.missing what) 1 else return before
      else takeUntil stop what bound (before ++ t.chars)

def readName (stop : Char) (what : String) : Read (List Char) := do
  takeUntil stop what ((← get).rest.length + 1) []

/-! ## Groups -/

def Reader.width? (r : Reader) (index : Nat) : Option Width :=
  (r.widths[index - 1]?).getD none

def Reader.nextGroup (r : Reader) : Nat := r.widths.length + 1

/-- Inside a look-behind, only groups closed before it can be referred to. -/
def checkBehind (index : Nat) : Read Unit := do
  let r ← get
  match r.behind with
  | none => return ()
  | some groups =>
    if (r.width? index).isNone then fail .openGroup 0
    else if groups < index then fail .groupOfSameLookBehind 0
    else return ()

def reference (index back : Nat) : Read Written := do
  match (← get).width? index with
  | none => fail .openGroup back
  | some width =>
    checkBehind index
    return .back index width

end JavaDeps.Pattern
