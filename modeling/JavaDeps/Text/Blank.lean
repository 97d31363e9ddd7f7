/-!
# Blanks and decimal digits

The blank characters and the decimal digits of all scripts.
-/

namespace JavaDeps.Text

/-- White space: the ASCII blanks, the four information separators, the next-line character and
the space separators. -/
def isBlank (c : Char) : Bool :=
  let n := c.toNat
  if n < 128 then n == 32 || (9 ≤ n && n ≤ 13) || (28 ≤ n && n ≤ 31)
  else n == 0x85 || n == 0xA0 || n == 0x1680 || (0x2000 ≤ n && n ≤ 0x200A) || n == 0x2028
    || n == 0x2029 || n == 0x202F || n == 0x205F || n == 0x3000

/-- The zeros of the scripts beyond ASCII; the digits one to nine follow each of them. -/
def digitZeros : List Nat :=
  [
   1632, 1776, 1984, 2406, 2534, 2662, 2790, 2918, 3046, 3174, 3302, 3430,
   3558, 3664, 3792, 3872, 4160, 4240, 6112, 6160, 6470, 6608, 6784, 6800,
   6992, 7088, 7232, 7248, 42528, 43216, 43264, 43472, 43504, 43600, 44016, 65296,
   66720, 68912, 69734, 69872, 69942, 70096, 70384, 70736, 70864, 71248, 71360, 71472,
   71904, 72016, 72784, 73040, 73120, 92768, 92864, 93008, 120782, 120792, 120802, 120812,
   120822, 123200, 123632, 125264, 130032]

def digitValue? (c : Char) : Option Nat :=
  let n := c.toNat
  if n < 128 then (if 48 ≤ n && n ≤ 57 then some (n - 48) else none)
  else (digitZeros.find? (fun z => z ≤ n && n ≤ z + 9)).map (n - ·)

def isDigit (c : Char) : Bool := (digitValue? c).isSome

end JavaDeps.Text
