import JavaDeps.Pattern.Reader
import JavaDeps.Text.CharacterName

/-!
# Single characters and sets in written patterns

An escaped character can stand for a condition, a class of characters, a control character, a
character given by its number or name, a group, or itself. A set lists characters, ranges and
classes between brackets.
-/

namespace JavaDeps.Pattern

/-! ## Escaped characters -/

def classOf? : Char → Option Member
  | 'd' => some (.cls .digit false)
  | 'D' => some (.cls .digit true)
  | 's' => some (.cls .blank false)
  | 'S' => some (.cls .blank true)
  | 'w' => some (.cls .word false)
  | 'W' => some (.cls .word true)
  | _ => none

def placeOf? : Char → Option Place
  | 'A' => some .textStart
  | 'Z' => some .textEnd
  | 'b' => some .wordEdge
  | 'B' => some .notWordEdge
  | _ => none

def controlOf? : Char → Option Nat
  | 'a' => some 7
  | 'b' => some 8
  | 't' => some 9
  | 'n' => some 10
  | 'v' => some 11
  | 'f' => some 12
  | 'r' => some 13
  | '\\' => some 92
  | _ => none

/-- The code after `\x`, `\u` or `\U`: exactly so many hexadecimal digits. -/
def hexCode (letter : Char) (count : Nat) : Read Nat := do
  let digits ← takeWhile (fun c => (Text.hexValue? c).isSome) count
  let escape := '\\' :: letter :: digits
  let code := Text.numberOf 16 digits
  if digits.length != count then fail (.incompleteEscape (String.ofList escape)) escape.length
  else if 0x10FFFF < code then fail (.badEscape (String.ofList escape)) escape.length
  else return code

/-- The code after `\N`: that of a character given by its name. -/
def namedCode : Read Nat := do
  if !(← accept '\x7b') then fail .noOpeningBrace 0
  else
    let name ← readName '\x7d' "character name"
    match Text.CharacterName.code? name with
    | some code => return code
    | none => fail (.undefinedCharacter (String.ofList name)) (name.length + 4)

def octalCode (digits : List Char) : Read Nat :=
  let escape := '\\' :: digits
  let code := Text.numberOf 8 digits
  if 0o377 < code then fail (.octalTooLarge (String.ofList escape)) escape.length else return code

/-- The code that an escaped character stands for, when it has none of the other meanings. -/
def plainCode (c : Char) : Read Nat :=
  if Text.isAsciiLetter c || Text.isAsciiDigit c then
    fail (.badEscape (String.ofList ['\\', c])) 2
  else return c.toNat

/-- The code of an escape that stands for a character by its number or name. -/
def numberedCode? (c : Char) : Option (Read Nat) :=
  match c with
  | 'x' => some (hexCode c 2)
  | 'u' => some (hexCode c 4)
  | 'U' => some (hexCode c 8)
  | 'N' => some namedCode
  | _ => none

def readSetEscape (c : Char) : Read Member := do
  match controlOf? c, classOf? c, numberedCode? c with
  | some code, _, _ => return .code code
  | none, some cls, _ => return cls
  | none, none, some read => return .code (← read)
  | none, none, none =>
    if Text.isOctalDigit c then
      let more ← takeWhile Text.isOctalDigit 2
      return .code (← octalCode (c :: more))
    else return .code (← plainCode c)

/-- What an escaped digit stands for: three octal digits for a code, otherwise up to two digits for
a group. -/
def readDigitEscape (c : Char) : Read Written := do
  let more ← takeWhile Text.isAsciiDigit 1
  let digits := c :: more
  let third ← if more.length == 1 && digits.all Text.isOctalDigit then takeWhile Text.isOctalDigit 1
    else pure []
  if third.length == 1 then return .code (← octalCode (digits ++ third))
  else
    let index := Text.numberOf 10 digits
    if index < (← get).nextGroup then reference index (digits.length + 1)
    else fail (.noSuchGroup index) digits.length

def readEscape (c : Char) : Read Written := do
  match placeOf? c, classOf? c, controlOf? c, numberedCode? c with
  | some place, _, _, _ => return .place place
  | none, some cls, _, _ => return .set false [cls]
  | none, none, some code, _ => return .code code
  | none, none, none, some read => return .code (← read)
  | none, none, none, none =>
    if c == '0' then
      let more ← takeWhile Text.isOctalDigit 2
      return .code (Text.numberOf 8 more)
    else if Text.isAsciiDigit c then readDigitEscape c
    else return .code (← plainCode c)

/-! ## Sets -/

def readMember : Token → Read Member
  | .plain c => return .code c.toNat
  | .escaped c => readSetEscape c

def rangeOf (low high : Token) (a b : Member) : Read Member :=
  let flaw := Flaw.badRange low.text high.text
  let back := low.chars.length + 1 + high.chars.length
  match a, b with
  | .code m, .code n => if n < m then fail flaw back else return .range m n
  | _, _ => fail flaw back

/-- Reads the members of a set up to the closing bracket, which is a member in first place. `start`
is where the set begins, and the first number bounds the members. -/
def readMembers (start : Nat) : Nat → List Member → Read (List Member)
  | 0, _ => fail .unterminatedSet 0
  | bound + 1, before => do
    match ← take with
    | none => fail .unterminatedSet ((← here) - start)
    | some low =>
      if low == .plain ']' && !before.isEmpty then return before
      else
        let a ← readMember low
        if ← accept '-' then
          match ← take with
          | none => fail .unterminatedSet ((← here) - start)
          | some high =>
            if high == .plain ']' then return before ++ [a, .code '-'.toNat]
            else
              let b ← readMember high
              let range ← rangeOf low high a b
              readMembers start bound (before ++ [range])
        else readMembers start bound (before ++ [a])

def readSet : Read Written := do
  let start := (← here) - 1
  let negative ← accept '^'
  let members := (← readMembers start ((← get).rest.length + 1) []).eraseDups
  match negative, members with
  | false, [.code n] => return .code n
  | _, _ => return .set negative members

end JavaDeps.Pattern
