import JavaDeps.Text.Basic

/-!
# Doubles

Numbers with a fraction are doubles: an integer below `2 ^ 53` times a power of two, an infinity, or
no number at all. They are exact here: reading rounds a decimal to the nearest double, a tie to the
even one, and writing takes the fewest digits that read back, and of those the nearest.
-/

namespace JavaDeps

/-- A double. A finite one is `significand * 2 ^ exponent`, with the least exponent that leaves the
significand below `2 ^ 53`. -/
inductive Double where
  | finite (negative : Bool) (significand : Nat) (exponent : Int)
  | infinite (negative : Bool)
  | nan
  deriving DecidableEq, Repr

namespace Double

def significandBound : Nat := Nat.pow 2 53

def leastExponent : Int := -1074

def greatestExponent : Int := 971

/-- The power of a base, when the exponent is not negative, and one otherwise. -/
def power (base : Nat) (exponent : Int) : Nat := base.pow exponent.toNat

/-! ## Reading -/

/-- A quotient rounded to the nearest integer, a tie to the even one. -/
def roundDiv (num den : Nat) : Nat :=
  let q := num / den
  let twice := 2 * (num % den)
  if den < twice || (twice == den && q % 2 == 1) then q + 1 else q

/-- A quotient rounded to a multiple of a power of two: how many times the power it is. -/
def scaled (num den : Nat) (exponent : Int) : Nat :=
  roundDiv (num * power 2 (-exponent)) (den * power 2 exponent)

/-- The least exponent for which a quotient is below the bound of significands, before rounding. -/
def exponentFor (num den : Nat) : Int :=
  let guess : Int := (num.log2 : Int) - den.log2 - 53
  let fits (e : Int) : Bool :=
    decide (num * power 2 (-e) < significandBound * den * power 2 e)
  max (if fits guess then guess else guess + 1) leastExponent

def ofQuotient (negative : Bool) (num den : Nat) : Double :=
  let e := exponentFor num den
  let m := scaled num den e
  let (m, e) := if m == significandBound then (significandBound / 2, e + 1) else (m, e)
  if greatestExponent < e then infinite negative else finite negative m e

def zero (negative : Bool) : Double := finite negative 0 leastExponent

/-- The double nearest to `digits * 10 ^ exponent`. Decimals that are far too large or too small are
settled by their number of digits. -/
def ofDecimal (negative : Bool) (digits : Nat) (exponent : Int) : Double :=
  let size : Int := (Nat.toDigits 10 digits).length + exponent
  if digits == 0 || size < -330 then zero negative
  else if 330 < size then infinite negative
  else ofQuotient negative (digits * power 10 exponent) (power 10 (-exponent))

/-! ## Writing -/

/-- The digits of a finite double above zero: as an integer, and the power of ten that it is
multiplied with. -/
structure Digits where
  value : Nat
  exponent : Int

/-- A decimal with so many digits that reads back as the double `m * 2 ^ e`: the nearer one of its
two neighbours, a tie to the even one. `top` is the power of ten above the double. -/
def digitsOf? (m : Nat) (e top : Int) (count : Nat) : Option Digits :=
  let exponent := top - count
  let num := m * power 2 e * power 10 (-exponent)
  let den := power 2 (-e) * power 10 exponent
  let low := num / den
  let twice := 2 * (num % den)
  let readsBack (n : Nat) : Bool := ofDecimal false n exponent == finite false m e
  let highFirst := den < twice || (twice == den && low % 2 == 1)
  let (first, second) := if highFirst then (low + 1, low) else (low, low + 1)
  if readsBack first then some ⟨first, exponent⟩
  else if readsBack second then some ⟨second, exponent⟩
  else none

/-- The power of ten above `m * 2 ^ e`: the least one that is greater. -/
def topOf (m : Nat) (e : Int) : Int :=
  let num := m * power 2 e
  let den := power 2 (-e)
  if den ≤ num then (Nat.toDigits 10 (num / den)).length
  else
    let places := (Nat.toDigits 10 (den / num)).length
    if num * power 10 (places - 1 : Int) < den then 1 - (places : Int) else 2 - (places : Int)

/-- The fewest digits that read back. Seventeen are always enough. -/
def shortest (m : Nat) (e : Int) : Digits :=
  let top := topOf m e
  ((List.range 17).findSome? (fun n => digitsOf? m e top (n + 1))).getD ⟨m, e⟩

/-- Digits with a point after the given number of them, and zeros where digits are missing. -/
def positional (digits : List Char) (point : Int) : List Char :=
  if point ≤ 0 then '0' :: '.' :: List.replicate (-point).toNat '0' ++ digits
  else
    let whole := digits.take point.toNat
    let fraction := digits.drop point.toNat
    whole ++ List.replicate (point.toNat - digits.length) '0' ++ '.'
      :: (if fraction.isEmpty then ['0'] else fraction)

/-- Digits with a point after the first of them, and an exponent of at least two digits. -/
def scientific (digits : List Char) (point : Int) : List Char :=
  let exponent := point - 1
  let size := Nat.toDigits 10 exponent.natAbs
  digits.take 1 ++ (if digits.length ≤ 1 then [] else '.' :: digits.drop 1)
    ++ 'e' :: (if exponent < 0 then '-' else '+')
    :: List.replicate (2 - size.length) '0' ++ size

/-- The written form of a finite double without its sign. It is positional when the point stands at
most three places before the digits, and at most sixteen digits after their start. -/
def magnitudeText (m : Nat) (e : Int) : String :=
  if m == 0 then "0.0"
  else
    let d := shortest m e
    let all := Nat.toDigits 10 d.value
    let point := d.exponent + all.length
    let digits := Text.dropEndWhile (· == '0') all
    String.ofList
      (if -4 < point && point ≤ 16 then positional digits point else scientific digits point)

def text : Double → String
  | finite negative m e => (if negative then "-" else "") ++ magnitudeText m e
  | infinite negative => if negative then "-inf" else "inf"
  | nan => "nan"

/-! ## Values -/

def quotient? : Double → Option (Int × Nat)
  | finite negative m e =>
    let num : Int := (m * power 2 e : Nat)
    some (if negative then -num else num, power 2 (-e))
  | _ => none

def toInt? (x : Double) : Option Int :=
  match x.quotient? with
  | some (num, den) => if num % den == 0 then some (num / den) else none
  | none => none

def isZero : Double → Bool
  | finite _ m _ => m == 0
  | _ => false

end Double

end JavaDeps
