import JavaDeps.Text.CharacterName.BasicPlane
import JavaDeps.Text.CharacterName.HistoricScripts
import JavaDeps.Text.CharacterName.Pictographs

/-!
# Characters by name

The code of the character with a given name. Names are of three kinds: Hangul syllables are spelled
from the names of their sounds, ideographs and a few other families are numbered, and all other
names are listed.

The list is one text of entries. An entry starts with a small letter, which tells how many words it
shares with the entry before: `a` stands for none. Its code is one more than that of the entry
before; `>` sets another code, and `/` keeps it.
-/

namespace JavaDeps.Text.CharacterName

/-! ## Listed names -/

/-- The code of a name among entries. `next` is the code of the next entry, and `last` the name
before it. The first number bounds the entries. -/
def searchEntries (name : List Char) : Nat → Nat → List Char → List Char → Option Nat
  | 0, _, _, _ => none
  | _ + 1, _, _, [] => none
  | bound + 1, next, last, c :: rest =>
    if c == '/' then searchEntries name bound (next - 1) last rest
    else
      let (piece, rest) := rest.span (fun d => !isMark d)
      if c == '>' then searchEntries name bound (numberOf 16 piece) last rest
      else
        let entry := firstWords (c.toNat - 97) last ++ piece
        if entry == name then some next else searchEntries name bound (next + 1) entry rest

def entries : Thunk (List Char) := Thunk.mk (fun _ =>
  unpack [basicPlane, historicScripts, pictographs])

/-- The code of a listed name. Small letters count as capitals. -/
def listed? (name : List Char) : Option Nat :=
  searchEntries (name.map asciiUpper) entries.get.length 0 [] entries.get

/-! ## Numbered names -/

/-- A family of names that end in the code of the character, with the codes that have one. -/
structure Family where
  title : String
  codes : List (Nat × Nat)

def ideographs : Family where
  title := "CJK UNIFIED IDEOGRAPH-"
  codes := [(0x3400, 0x4DBF), (0x4E00, 0x9FFF), (0x20000, 0x2A6DF), (0x2A700, 0x2B738),
    (0x2B740, 0x2B81D), (0x2B820, 0x2CEA1), (0x2CEB0, 0x2EBE0), (0x30000, 0x3134A)]

/-- The families in whose names small letters count as capitals. -/
def families : List Family :=
  [⟨"CJK COMPATIBILITY IDEOGRAPH-", [(0xF900, 0xFA6D), (0xFA70, 0xFAD9), (0x2F800, 0x2FA1D)]⟩,
   ⟨"KHITAN SMALL SCRIPT CHARACTER-", [(0x18B00, 0x18CD5)]⟩,
   ⟨"NUSHU CHARACTER-", [(0x1B170, 0x1B2FB)]⟩]

/-- The code of a name in a family: the title and four or five capital hexadecimal digits. -/
def Family.code? (family : Family) (name : List Char) : Option Nat :=
  let title := family.title.toList
  let digits := name.drop title.length
  let code := numberOf 16 digits
  if title.isPrefixOf name && (digits.length == 4 || digits.length == 5) && digits.all isUpperHex
      && family.codes.any (fun range => range.1 ≤ code && code ≤ range.2) then some code
  else none

/-- The code of a numbered name. Only the ideographs may have a zero before their code. -/
def numbered? (name : List Char) : Option Nat :=
  match ideographs.code? name with
  | some code => some code
  | none =>
    let name := name.map asciiUpper
    families.findSome? (fun family =>
      if (name.drop family.title.length).head? == some '0' then none else family.code? name)

/-! ## Hangul syllables -/

def firstSounds : List String :=
  ["G", "GG", "N", "D", "DD", "R", "M", "B", "BB", "S", "SS", "", "J", "JJ", "C", "K", "T", "P",
   "H"]

def middleSounds : List String :=
  ["A", "AE", "YA", "YAE", "EO", "E", "YEO", "YE", "O", "WA", "WAE", "OE", "YO", "U", "WEO", "WE",
   "WI", "YU", "EU", "YI", "I"]

def lastSounds : List String :=
  ["", "G", "GG", "GS", "N", "NJ", "NH", "D", "L", "LG", "LM", "LB", "LS", "LT", "LP", "LH", "M",
   "B", "BS", "S", "SS", "NG", "J", "C", "K", "T", "P", "H"]

/-- The longest sound with which a text starts: its number and what follows. -/
def readSound (sounds : List String) (text : List Char) : Option (Nat × List Char) :=
  let fitting := sounds.zipIdx.filter (fun sound => sound.1.toList.isPrefixOf text)
  let longest := fitting.foldl (fun best sound => match best with
    | some (kept : String × Nat) => if kept.1.length < sound.1.length then some sound else best
    | none => some sound) none
  longest.map (fun sound => (sound.2, text.drop sound.1.length))

def syllable? (name : List Char) : Option Nat := do
  let (first, rest) ← readSound firstSounds name
  let (middle, rest) ← readSound middleSounds rest
  let (last, rest) ← readSound lastSounds rest
  if rest.isEmpty then some (0xAC00 + (first * 21 + middle) * 28 + last) else none

/-! ## All names -/

def code? (name : List Char) : Option Nat :=
  let syllables := "HANGUL SYLLABLE ".toList
  if syllables.isPrefixOf name then syllable? (name.drop syllables.length)
  else match numbered? name with
    | some code => some code
    | none => listed? name

end JavaDeps.Text.CharacterName
