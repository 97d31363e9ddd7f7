import JavaDeps.Text.Quoted

/-!
# Integers in text

An integer is written as an optional sign and decimal digits of any script, with single underscores
allowed between digits and white space allowed around it. There is a limit on the number of digits.
-/

namespace JavaDeps.Text

/-- Why a text denotes no integer. -/
inductive IntegerFlaw where
  | malformed (text : String)
  | tooLong (digits : Nat)
  deriving DecidableEq, Repr

/-- The largest number of digits that an integer can be written with. -/
def digitLimit : Nat := 4300

/-- The wording of a flaw. A malformed text is shown by the start of its quoted form. -/
def IntegerFlaw.message : IntegerFlaw → String
  | malformed text =>
    "invalid literal for int() with base 10: " ++ takeChars (quoted text) 200
  | tooLong digits =>
    "Exceeds the limit (" ++ ofNat digitLimit ++ " digits) for integer string conversion: "
      ++ "value has " ++ ofNat digits
      ++ " digits; use sys.set_int_max_str_digits() to increase the limit"

/-- White space around an integer. The information separators are none. -/
def isPadding (c : Char) : Bool := isBlank c && !(28 ≤ c.toNat && c.toNat ≤ 31)

/-- A run of digits with underscores between them. -/
structure DigitRun where
  value : Nat
  count : Nat

/-- Reads digits and underscores up to another character. `digitBefore` tells whether the character
before was a digit; an underscore has a digit on either side. -/
def readRun (run : DigitRun) (digitBefore : Bool) : List Char → Option (DigitRun × List Char)
  | [] => if digitBefore then some (run, []) else none
  | c :: rest =>
    if c == '_' then (if digitBefore then readRun run false rest else none)
    else match digitValue? c with
      | some d => readRun ⟨run.value * 10 + d, run.count + 1⟩ true rest
      | none => if digitBefore then some (run, c :: rest) else none

/-- The integer that a text denotes. Too many digits are found before what follows them is read. -/
def readInt (text : String) : Except IntegerFlaw Int :=
  let body := text.toList.dropWhile isPadding
  let (negative, digits) := match body with
    | '-' :: rest => (true, rest)
    | '+' :: rest => (false, rest)
    | rest => (false, rest)
  match readRun ⟨0, 0⟩ false digits with
  | none => .error (.malformed text)
  | some (run, rest) =>
    if digitLimit < run.count then .error (.tooLong run.count)
    else if !(rest.all isPadding) then .error (.malformed text)
    else .ok (if negative then -(run.value : Int) else run.value)

end JavaDeps.Text
