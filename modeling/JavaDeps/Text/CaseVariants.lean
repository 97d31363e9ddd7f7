import JavaDeps.Text.Ascii
import JavaDeps.Text.Lower

/-!
# Letters in upper and lower case

Which characters count as the same letter when case is ignored: those with the same lower-case form,
and a few more whose lower-case forms share an upper-case form.
-/

namespace JavaDeps.Text

/-- How letters are compared: as they are, with the case of ASCII letters ignored, or with the case
of all letters ignored. -/
inductive LetterCase where
  | exact
  | ascii
  | any
  deriving DecidableEq, Repr

def sharedCapitals : List (List Nat) :=
  [[105, 305], [115, 383], [181, 956], [837, 953, 8126], [912, 8147], [944, 8163], [946, 976],
   [949, 1013], [952, 977], [954, 1008], [960, 982], [961, 1009], [962, 963], [966, 981],
   [1074, 7296], [1076, 7297], [1086, 7298], [1089, 7299], [1090, 7300, 7301], [1098, 7302],
   [1123, 7303], [7304, 42571], [7777, 7835], [64261, 64262]]

def simpleLower (c : Char) : Char := if c.toNat == 0x130 then 'i' else lowerChar c

/-- The code point in a run whose lower-case form is the given one. -/
def runSource? (n : Nat) (r : Nat × Nat × Nat × Int) : Option Char :=
  let m := ((n : Int) - r.2.2.2).toNat
  if r.1 ≤ m && m ≤ r.2.1 && (m - r.1) % r.2.2.1 == 0 then some (Char.ofNat m) else none

def lowerSources (c : Char) : List Char :=
  let n := c.toNat
  (if simpleLower c == c then [c] else [])
    ++ (if 97 ≤ n && n ≤ 122 then [Char.ofNat (n - 32)] else [])
    ++ (if c == 'i' then [Char.ofNat 0x130] else [])
    ++ lowerRuns.filterMap (runSource? n)

def lowerClass (c : Char) : List Char :=
  match sharedCapitals.find? (fun group => group.contains c.toNat) with
  | some group => group.map Char.ofNat
  | none => [c]

/-- Letters that stand for two letters of which the first one is a capital; the capital form comes
right before them. -/
def mixedPairs : List Nat := [0x1C5, 0x1C8, 0x1CB, 0x1F2]

/-- The single capital form of a character, when it has one beside itself. The sharp s has none. -/
def capital? (c : Char) : Option Char :=
  if mixedPairs.contains c.toNat then some (Char.ofNat (c.toNat - 1))
  else if simpleLower c != c || c.toNat == 0xDF then none
  else (c :: lowerClass c).findSome? (fun l => (lowerSources l).find? (· != l))

namespace LetterCase

def lower : LetterCase → Char → Char
  | exact, c => c
  | ascii, c => asciiLower c
  | any, c => simpleLower c

def variants : LetterCase → Char → List Char
  | exact, c => [c]
  | ascii, c =>
    let l := asciiLower c
    if 97 ≤ l.toNat && l.toNat ≤ 122 then [l, Char.ofNat (l.toNat - 32)] else [c]
  | any, c => (lowerClass (simpleLower c)).flatMap lowerSources

end LetterCase

end JavaDeps.Text
