import JavaDeps.Text.Integer

/-!
# Errors in written patterns

Why a text is not a written pattern, or cannot be used as one. Most errors are flaws at a place of
the text; the wording of such an error ends with the place, and with its line and column when the
text has several lines.
-/

namespace JavaDeps.Pattern

/-- What is wrong at a place of a written pattern. Pieces of the text are given as they stand there.
-/
inductive Flaw where
  | loneBackslash
  | badEscape (escape : String)
  | incompleteEscape (escape : String)
  | octalTooLarge (escape : String)
  | noOpeningBrace
  | missing (what : String)
  | unterminatedName (stop : String)
  | undefinedCharacter (name : String)
  | unterminatedSet
  | badRange (low high : String)
  | reversedCount
  | nothingToRepeat
  | repeatedTwice
  | unexpectedEnd
  | unknownExtension (mark : String)
  | unterminatedRemark
  | unterminatedGroup
  | unbalancedGroup
  | badGroupName (name : String)
  | unknownGroupName (name : String)
  | groupNamedTwice (name : String) (index earlier : Nat)
  | badGroupNumber
  | noSuchGroup (index : Nat)
  | openGroup
  | groupOfSameLookBehind
  | tooManyBranches
  | lateSwitches
  | unknownSwitch
  | missingSwitch
  | missingSwitchEnd
  | missingColon
  | byteSwitch
  | severalAlphabets
  | alphabetTurnedOff
  | wholeTurnedOn
  | wholeTurnedOff
  | onAndOff
  deriving DecidableEq, Repr

def Flaw.message : Flaw → String
  | loneBackslash => "bad escape (end of pattern)"
  | badEscape escape => "bad escape " ++ escape
  | incompleteEscape escape => "incomplete escape " ++ escape
  | octalTooLarge escape => "octal escape value " ++ escape ++ " outside of range 0-0o377"
  | noOpeningBrace => "missing \x7b"
  | missing what => "missing " ++ what
  | unterminatedName stop => "missing " ++ stop ++ ", unterminated name"
  | undefinedCharacter name => "undefined character name " ++ Text.quoted name
  | unterminatedSet => "unterminated character set"
  | badRange low high => "bad character range " ++ low ++ "-" ++ high
  | reversedCount => "min repeat greater than max repeat"
  | nothingToRepeat => "nothing to repeat"
  | repeatedTwice => "multiple repeat"
  | unexpectedEnd => "unexpected end of pattern"
  | unknownExtension mark => "unknown extension ?" ++ mark
  | unterminatedRemark => "missing ), unterminated comment"
  | unterminatedGroup => "missing ), unterminated subpattern"
  | unbalancedGroup => "unbalanced parenthesis"
  | badGroupName name => "bad character in group name " ++ Text.quoted name
  | unknownGroupName name => "unknown group name " ++ Text.quoted name
  | groupNamedTwice name index earlier =>
    "redefinition of group name " ++ Text.quoted name ++ " as group " ++ Text.ofNat index
      ++ "; was group " ++ Text.ofNat earlier
  | badGroupNumber => "bad group number"
  | noSuchGroup index => "invalid group reference " ++ Text.ofNat index
  | openGroup => "cannot refer to an open group"
  | groupOfSameLookBehind => "cannot refer to group defined in the same lookbehind subpattern"
  | tooManyBranches => "conditional backref with more than two branches"
  | lateSwitches => "global flags not at the start of the expression"
  | unknownSwitch => "unknown flag"
  | missingSwitch => "missing flag"
  | missingSwitchEnd => "missing -, : or )"
  | missingColon => "missing :"
  | byteSwitch => "bad inline flags: cannot use 'L' flag with a str pattern"
  | severalAlphabets => "bad inline flags: flags 'a', 'u' and 'L' are incompatible"
  | alphabetTurnedOff => "bad inline flags: cannot turn off flags 'a', 'u' and 'L'"
  | wholeTurnedOn => "bad inline flags: cannot turn on global flag"
  | wholeTurnedOff => "bad inline flags: cannot turn off global flag"
  | onAndOff => "bad inline flags: flag turned on and off"

/-- A place in a text: how many characters stand before it, and its line and column, from 1 on, when
the text has several lines. -/
structure Position where
  offset : Nat
  lineAndColumn : Option (Nat × Nat)
  deriving DecidableEq, Repr

namespace Position

def ofOffset (text : List Char) (offset : Nat) : Position :=
  let before := text.take offset
  let column := (before.reverse.takeWhile (· != '\n')).length + 1
  ⟨offset, if text.contains '\n' then some (before.count '\n' + 1, column) else none⟩

def message (p : Position) : String :=
  " at position " ++ Text.ofNat p.offset ++ match p.lineAndColumn with
    | some (line, column) =>
      " (line " ++ Text.ofNat line ++ ", column " ++ Text.ofNat column ++ ")"
    | none => ""

end Position

end JavaDeps.Pattern

namespace JavaDeps

/-- Why a text cannot be used as a written pattern. -/
inductive PatternError where
  /-- Something is wrong at a place. -/
  | flawed (flaw : Pattern.Flaw) (place : Pattern.Position)
  /-- The body of a look-behind can have several widths. -/
  | severalWidths
  /-- The body of a look-behind is too wide. -/
  | tooWide
  /-- A number of repetitions is too large. -/
  | tooManyRepetitions
  /-- A number of repetitions has too many digits. -/
  | tooManyDigits (digits : Nat)
  /-- Both alphabets are switched on. -/
  | severalAlphabets
  /-- Groups are nested too deeply. -/
  | tooDeep
  /-- A match marks the end of a group before its start. -/
  | reversedGroup
  deriving DecidableEq, Repr

def PatternError.message : PatternError → String
  | flawed flaw place => flaw.message ++ place.message
  | severalWidths => "look-behind requires fixed-width pattern"
  | tooWide => "looks too much behind"
  | tooManyRepetitions => "the repetition number is too large"
  | tooManyDigits digits => (Text.IntegerFlaw.tooLong digits).message
  | severalAlphabets => "ASCII and UNICODE flags are incompatible"
  | tooDeep => "maximum recursion depth exceeded"
  | reversedGroup =>
    "The span of capturing group is wrong, please report a bug for the re module."

end JavaDeps
