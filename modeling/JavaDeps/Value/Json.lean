import JavaDeps.Text.Ascii
import JavaDeps.Value.Basic
import JavaDeps.Table

/-!
# JSON

Reading and writing values as JSON.

The file defines:
- `Value.ofJson?`, the reader: a repeated field name keeps its first place and its last value, and
  lists and records are nested only so deep;
- `Value.json`, the compact form, in which only quotes, backslashes and control characters are
  escaped;
- `Value.asciiJson`, the form with line breaks and indentation, in which everything outside the
  visible ASCII characters is escaped.
-/

namespace JavaDeps.Value

/-! ## Reading -/

def skipBlanks (cs : List Char) : List Char :=
  cs.dropWhile (fun c => c == ' ' || c == '\t' || c == '\n' || c == '\r')

def joinSurrogates (high low : Nat) : Nat := 0x10000 + (high - 0xD800) * 0x400 + (low - 0xDC00)

/-- Reads the rest of a string after its opening quote; the characters read are in reverse. -/
def readString : Nat → List Char → List Char → Option (List Char × List Char)
  | 0, _, _ => none
  | bound + 1, done, cs => match cs with
    | [] => none
    | '"' :: rest => some (done.reverse, rest)
    | '\\' :: 'u' :: rest => match Text.readHex 4 0 rest with
      | none => none
      | some (n, rest) =>
        if 0xD800 ≤ n && n < 0xDC00 then
          match rest with
          | '\\' :: 'u' :: after => match Text.readHex 4 0 after with
            | some (m, after) =>
              if 0xDC00 ≤ m && m < 0xE000 then
                readString bound (Char.ofNat (joinSurrogates n m) :: done) after
              else readString bound (Char.ofNat 0xFFFD :: done) rest
            | none => none
          | _ => readString bound (Char.ofNat 0xFFFD :: done) rest
        else if 0xDC00 ≤ n && n < 0xE000 then readString bound (Char.ofNat 0xFFFD :: done) rest
        else readString bound (Char.ofNat n :: done) rest
    | '\\' :: c :: rest =>
      let plain? : Option Char := match c with
        | '"' => some '"'
        | '\\' => some '\\'
        | '/' => some '/'
        | 'b' => some (Char.ofNat 8)
        | 'f' => some (Char.ofNat 12)
        | 'n' => some '\n'
        | 'r' => some '\r'
        | 't' => some '\t'
        | _ => none
      match plain? with
      | some d => readString bound (d :: done) rest
      | none => none
    | c :: rest => if c.toNat < 32 then none else readString bound (c :: done) rest

def readDigitRun (cs : List Char) : List Char × List Char := cs.span Text.isAsciiDigit

/-- Reads the digits of a fraction, which needs a digit after its point. -/
def readFraction (cs : List Char) : Option (List Char) × List Char :=
  match cs with
  | '.' :: rest => match readDigitRun rest with
    | ([], _) => (none, cs)
    | (digits, rest) => (some digits, rest)
  | _ => (none, cs)

def readExponent (cs : List Char) : Option Int × List Char :=
  match cs with
  | e :: rest =>
    if e == 'e' || e == 'E' then
      let (negative, rest) := match rest with
        | '+' :: rest => (false, rest)
        | '-' :: rest => (true, rest)
        | rest => (false, rest)
      match readDigitRun rest with
      | ([], _) => (none, cs)
      | (digits, rest) =>
        let n : Int := Text.numberOf 10 digits
        (some (if negative then -n else n), rest)
    else (none, cs)
  | [] => (none, cs)

/-- Reads a number. An integer has a limited number of digits. -/
def readNumber (cs : List Char) : Option (Value × List Char) :=
  let (negative, body) := match cs with
    | '-' :: rest => (true, rest)
    | rest => (false, rest)
  let (whole, rest) := match body with
    | '0' :: rest => (['0'], rest)
    | rest => readDigitRun rest
  let (fraction?, rest) := readFraction rest
  let (exponent?, rest) := readExponent rest
  if whole.isEmpty then none
  else if fraction?.isNone && exponent?.isNone then
    let n : Int := Text.numberOf 10 whole
    if Text.digitLimit < whole.length then none else some (.int (if negative then -n else n), rest)
  else
    let fraction := fraction?.getD []
    let x := Double.ofDecimal negative (Text.numberOf 10 (whole ++ fraction))
      (exponent?.getD 0 - fraction.length)
    some (.atom (.decimal x), rest)

def dropWord (word : String) (cs : List Char) : Option (List Char) :=
  if word.toList.isPrefixOf cs then some (cs.drop word.length) else none

def readWord (cs : List Char) : Option (Value × List Char) :=
  let words : List (String × Value) :=
    [("null", null), ("true", bool true), ("false", bool false), ("NaN", .atom (.decimal .nan)),
      ("Infinity", .atom (.decimal (.infinite false))),
      ("-Infinity", .atom (.decimal (.infinite true)))]
  words.findSome? (fun w => (dropWord w.1 cs).map (fun rest => (w.2, rest)))

def nestingLimit : Nat := 984

mutual

/-- Reads a value. The first number bounds the steps, the second one the lists and records that may
still be opened inside each other. -/
def readValue : Nat → Nat → List Char → Option (Value × List Char)
  | 0, _, _ => none
  | bound + 1, room, cs => match cs, room with
    | '"' :: rest, _ => (readString (rest.length + 1) [] rest).map
        (fun r => (str (String.ofList r.1), r.2))
    | '[' :: _, 0 => none
    | '[' :: rest, room + 1 => match skipBlanks rest with
      | ']' :: rest => some (.list [], rest)
      | rest => readItems bound room [] rest
    | '\x7b' :: _, 0 => none
    | '\x7b' :: rest, room + 1 => match skipBlanks rest with
      | '\x7d' :: rest => some (.obj [], rest)
      | rest => readFields bound room Table.empty rest
    | cs, _ => match readWord cs with
      | some r => some r
      | none => readNumber cs

/-- Reads the items of a list after its opening bracket; the items read are in reverse. -/
def readItems : Nat → Nat → List Value → List Char → Option (Value × List Char)
  | 0, _, _, _ => none
  | bound + 1, room, done, cs => match readValue bound room cs with
    | none => none
    | some (v, rest) => match skipBlanks rest with
      | ',' :: rest => readItems bound room (v :: done) (skipBlanks rest)
      | ']' :: rest => some (.list (v :: done).reverse, rest)
      | _ => none

def readFields : Nat → Nat → Table String Value → List Char → Option (Value × List Char)
  | 0, _, _, _ => none
  | bound + 1, room, done, cs => match cs with
    | '"' :: rest => match readString (rest.length + 1) [] rest with
      | none => none
      | some (name, rest) => match skipBlanks rest with
        | ':' :: rest => match readValue bound room (skipBlanks rest) with
          | none => none
          | some (v, rest) =>
            let done := done.set (String.ofList name) v
            match skipBlanks rest with
            | ',' :: rest => readFields bound room done (skipBlanks rest)
            | '\x7d' :: rest => some (.obj done.entries, rest)
            | _ => none
        | _ => none
    | _ => none

end

def ofJson? (text : String) : Option Value :=
  let cs := skipBlanks text.toList
  match readValue (2 * cs.length + 2) nestingLimit cs with
  | some (v, rest) => if (skipBlanks rest).isEmpty then some v else none
  | none => none

/-! ## Writing -/

def shortEscape? (c : Char) : Option (List Char) :=
  if c == '"' then some ['\\', '"']
  else if c == '\\' then some ['\\', '\\']
  else if c == '\n' then some ['\\', 'n']
  else if c == '\r' then some ['\\', 'r']
  else if c == '\t' then some ['\\', 't']
  else if c.toNat == 8 then some ['\\', 'b']
  else if c.toNat == 12 then some ['\\', 'f']
  else none

def unitEscape (n : Nat) : List Char := '\\' :: 'u' :: Text.hex 4 n

/-- How a character stands in a JSON string, escaped when it is a control character. -/
def rawChar (c : Char) : List Char :=
  match shortEscape? c with
  | some e => e
  | none => if c.toNat < 32 then unitEscape c.toNat else [c]

/-- How a character stands in a JSON string of visible ASCII characters. -/
def asciiChar (c : Char) : List Char :=
  match shortEscape? c with
  | some e => e
  | none =>
    let n := c.toNat
    if 32 ≤ n && n ≤ 126 then [c]
    else if n < 0x10000 then unitEscape n
    else
      let m := n - 0x10000
      unitEscape (0xD800 + m / 0x400) ++ unitEscape (0xDC00 + m % 0x400)

def jsonString (escape : Char → List Char) (s : String) : String :=
  String.ofList ('"' :: s.toList.flatMap escape ++ ['"'])

def atomJson (escape : Char → List Char) : Atom → String
  | .null => "null"
  | .bool b => if b then "true" else "false"
  | .int n => Text.ofInt n
  | .decimal .nan => "NaN"
  | .decimal (.infinite negative) => if negative then "-Infinity" else "Infinity"
  | .decimal x => x.text
  | .str s => jsonString escape s

mutual

def json : Value → String
  | .atom a => atomJson rawChar a
  | .list items => "[" ++ jsonItems items ++ "]"
  | .obj fields => "\x7b" ++ jsonFields fields ++ "\x7d"

def jsonItems : List Value → String
  | [] => ""
  | [v] => json v
  | v :: rest => json v ++ "," ++ jsonItems rest

def jsonFields : List (String × Value) → String
  | [] => ""
  | [(name, v)] => jsonString rawChar name ++ ":" ++ json v
  | (name, v) :: rest => jsonString rawChar name ++ ":" ++ json v ++ "," ++ jsonFields rest

end

def lineBreak (depth : Nat) : String := String.ofList ('\n' :: List.replicate (2 * depth) ' ')

mutual

def asciiJsonAt : Nat → Value → String
  | _, .atom a => atomJson asciiChar a
  | _, .list [] => "[]"
  | _, .obj [] => "\x7b\x7d"
  | depth, .list items =>
    "[" ++ asciiItems (depth + 1) items ++ lineBreak depth ++ "]"
  | depth, .obj fields =>
    "\x7b" ++ asciiFields (depth + 1) fields ++ lineBreak depth ++ "\x7d"

def asciiItems : Nat → List Value → String
  | _, [] => ""
  | depth, [v] => lineBreak depth ++ asciiJsonAt depth v
  | depth, v :: rest => lineBreak depth ++ asciiJsonAt depth v ++ "," ++ asciiItems depth rest

def asciiFields : Nat → List (String × Value) → String
  | _, [] => ""
  | depth, [(name, v)] =>
    lineBreak depth ++ jsonString asciiChar name ++ ": " ++ asciiJsonAt depth v
  | depth, (name, v) :: rest =>
    lineBreak depth ++ jsonString asciiChar name ++ ": " ++ asciiJsonAt depth v ++ ","
      ++ asciiFields depth rest

end

/-- The indented JSON form of a value in visible ASCII characters. -/
def asciiJson (v : Value) : String := asciiJsonAt 0 v

/-- The field name for a key: a text stands for itself, any other value for its JSON form. -/
def keyText : Atom → String
  | .str s => s
  | a => atomJson rawChar a

end JavaDeps.Value
