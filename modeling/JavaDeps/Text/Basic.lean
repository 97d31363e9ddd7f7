import JavaDeps.Text.Blank

/-!
# Plain text operations

Searching, splitting, replacing and ordering of texts, defined on lists of characters by
recursion on the text and offered on `String`.

The file defines:
- `precedes`, the code point order;
- `starts`, `ends`, `within`, the occurrence tests;
- `replace`, `split`, `splitAtMost`, `words`, `join`, `strip`;
- `ofNat`, `ofInt`, decimal numerals;
- `normalizeNewlines`, which gives every line the same end.
-/

namespace JavaDeps.Text

/-! ## Order -/

def codeLt : List Char → List Char → Bool
  | _, [] => false
  | [], _ :: _ => true
  | a :: as, b :: bs => decide (a.toNat < b.toNat) || (a.toNat == b.toNat && codeLt as bs)

/-- Whether `a` comes strictly before `b` in code point order. -/
def precedes (a b : String) : Bool := codeLt a.toList b.toList

/-! ## Occurrence -/

def occursIn (needle : List Char) : List Char → Bool
  | [] => needle.isEmpty
  | c :: rest => needle.isPrefixOf (c :: rest) || occursIn needle rest

def starts (s p : String) : Bool := p.toList.isPrefixOf s.toList

def ends (s e : String) : Bool := e.toList.isSuffixOf s.toList

def within (needle s : String) : Bool := occursIn needle.toList s.toList

/-! ## Replacing and splitting -/

/-- Replaces the non-overlapping occurrences of `old`, from left to right. The number counts the
characters of an occurrence that are still to be passed over. -/
def replaceFrom (old new : List Char) : Nat → List Char → List Char
  | _, [] => []
  | n + 1, _ :: rest => replaceFrom old new n rest
  | 0, c :: rest =>
    if old.isPrefixOf (c :: rest) then new ++ replaceFrom old new (old.length - 1) rest
    else c :: replaceFrom old new 0 rest

def replace (s old new : String) : String :=
  String.ofList (replaceFrom old.toList new.toList 0 s.toList)

/-- The parts of a text between the separators; there is always at least one part. -/
def splitChars (sep : Char) : List Char → List (List Char)
  | [] => [[]]
  | c :: rest =>
    if c == sep then [] :: splitChars sep rest
    else match splitChars sep rest with
      | [] => [[c]]
      | w :: ws => (c :: w) :: ws

/-- The parts of a text, cut at no more than the first `n` separators. -/
def splitCharsAtMost (sep : Char) : Nat → List Char → List (List Char)
  | _, [] => [[]]
  | n, c :: rest =>
    if c == sep && n != 0 then [] :: splitCharsAtMost sep (n - 1) rest
    else match splitCharsAtMost sep n rest with
      | [] => [[c]]
      | w :: ws => (c :: w) :: ws

def split (s : String) (sep : Char) : List String :=
  (splitChars sep s.toList).map String.ofList

/-- The parts of `s`, cut at no more than the first `n` separators. -/
def splitAtMost (s : String) (sep : Char) (n : Nat) : List String :=
  (splitCharsAtMost sep n s.toList).map String.ofList

def lastPart (s : String) (sep : Char) : String := ((split s sep).getLast?).getD ""

def firstPart (s : String) (sep : Char) : String := ((split s sep).head?).getD ""

def words (s : String) : List String :=
  let spaced := s.toList.map (fun c => if isBlank c then ' ' else c)
  (split (String.ofList spaced) ' ').filter (· != "")

/-- The texts one after the other with `sep` between them. -/
def join (sep : String) : List String → String
  | [] => ""
  | [s] => s
  | s :: rest => s ++ sep ++ join sep rest

def dropEndWhile (p : Char → Bool) (s : List Char) : List Char :=
  (s.reverse.dropWhile p).reverse

def stripChars (s : List Char) : List Char := dropEndWhile isBlank (s.dropWhile isBlank)

def strip (s : String) : String := String.ofList (stripChars s.toList)

def takeChars (s : String) (n : Nat) : String := String.ofList (s.toList.take n)

def dropChars (s : String) (n : Nat) : String := String.ofList (s.toList.drop n)

/-! ## Numerals and lines -/

def ofNat (n : Nat) : String := String.ofList (Nat.toDigits 10 n)

def ofInt : Int → String
  | .ofNat n => ofNat n
  | .negSucc n => "-" ++ ofNat (n + 1)

/-- Hexadecimal digits in lower case, filled with zeros to the given width. -/
def hex (width n : Nat) : List Char :=
  let digits := Nat.toDigits 16 n
  List.replicate (width - digits.length) '0' ++ digits

/-- Writes every line end (carriage return, line feed or both together) as a line feed. -/
def normalizeNewlines : List Char → List Char
  | [] => []
  | '\r' :: '\n' :: rest => '\n' :: normalizeNewlines rest
  | c :: rest => (if c == '\r' then '\n' else c) :: normalizeNewlines rest

end JavaDeps.Text
