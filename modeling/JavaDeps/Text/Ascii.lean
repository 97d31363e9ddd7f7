/-!
# ASCII characters

Letters, digits and their values in ASCII.

The file defines:
- `isAsciiLetter`, `isAsciiDigit`, `isOctalDigit`, `isUpperHex`, the classes;
- `asciiLower` and `asciiUpper`, the case of letters;
- `numberOf`, the number that digits denote, and `readHex`, which reads hexadecimal digits.
-/

namespace JavaDeps.Text

def isAsciiLetter (c : Char) : Bool :=
  (97 ≤ c.toNat && c.toNat ≤ 122) || (65 ≤ c.toNat && c.toNat ≤ 90)

def isAsciiDigit (c : Char) : Bool := 48 ≤ c.toNat && c.toNat ≤ 57

def isOctalDigit (c : Char) : Bool := 48 ≤ c.toNat && c.toNat ≤ 55

def isUpperHex (c : Char) : Bool := isAsciiDigit c || (65 ≤ c.toNat && c.toNat ≤ 70)

def asciiLower (c : Char) : Char :=
  if 65 ≤ c.toNat && c.toNat ≤ 90 then Char.ofNat (c.toNat + 32) else c

def asciiUpper (c : Char) : Char :=
  if 97 ≤ c.toNat && c.toNat ≤ 122 then Char.ofNat (c.toNat - 32) else c

def hexValue? (c : Char) : Option Nat :=
  let n := c.toNat
  if 48 ≤ n && n ≤ 57 then some (n - 48)
  else if 97 ≤ n && n ≤ 102 then some (n - 87)
  else if 65 ≤ n && n ≤ 70 then some (n - 55)
  else none

def numberOf (base : Nat) (digits : List Char) : Nat :=
  digits.foldl (fun value c => value * base + (hexValue? c).getD 0) 0

def readHex : Nat → Nat → List Char → Option (Nat × List Char)
  | 0, value, cs => some (value, cs)
  | _ + 1, _, [] => none
  | count + 1, value, c :: cs => match hexValue? c with
    | some d => readHex count (value * 16 + d) cs
    | none => none

end JavaDeps.Text
