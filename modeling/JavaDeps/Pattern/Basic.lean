import JavaDeps.Text.Basic
import JavaDeps.Text.CaseVariants
import JavaDeps.Text.WordChar

/-!
# Text patterns

A pattern describes pieces of text. Where a piece can be read in several ways, the pattern fixes
the order in which the ways are tried: the left alternative first, the longer repetition first
when it is greedy and the shorter one first when it is lazy.
-/

namespace JavaDeps

/-- In which order a repetition tries its lengths. A possessive repetition keeps its first choice.
-/
inductive Greed where
  | greedy
  | lazy
  | possessive
  deriving DecidableEq, Repr

/-- A condition on a place in the text. -/
inductive Anchor where
  | textStart
  | textEnd
  | lineStart
  | lineEnd
  | lastLineEnd
  | wordEdge
  | notWordEdge
  | asciiWordEdge
  | notAsciiWordEdge
  deriving DecidableEq, Repr

/-- A pattern over texts. -/
inductive Pattern where
  | empty
  | one (accepts : Char → Bool)
  | seq (first second : Pattern)
  | alt (left right : Pattern)
  | rep (body : Pattern) (least : Nat) (most : Option Nat) (greed : Greed)
  | group (index : Nat) (body : Pattern)
  | back (index : Nat) (letters : Text.LetterCase)
  | anchor (place : Anchor)
  | ahead (positive : Bool) (body : Pattern)
  | behind (positive : Bool) (width : Nat) (body : Pattern)
  | atomic (body : Pattern)
  | ifGroup (index : Nat) (yes no : Pattern)

namespace Pattern

instance : Append Pattern := ⟨Pattern.seq⟩

def literalChars : List Char → Pattern
  | [] => .empty
  | [c] => .one (· == c)
  | c :: rest => .seq (.one (· == c)) (literalChars rest)

def literal (s : String) : Pattern := literalChars s.toList

/-- Any number of characters of a class, as many as possible. -/
def many (accepts : Char → Bool) : Pattern := .rep (.one accepts) 0 none .greedy

/-- One or more characters of a class, as many as possible. -/
def many1 (accepts : Char → Bool) : Pattern := .rep (.one accepts) 1 none .greedy

/-- Any number of characters of a class, as few as possible. -/
def few (accepts : Char → Bool) : Pattern := .rep (.one accepts) 0 none .lazy

def optional (p : Pattern) : Pattern := .rep p 0 (some 1) .greedy

def oneOf : List Pattern → Pattern
  | [] => .empty
  | [p] => p
  | p :: rest => .alt p (oneOf rest)

def blanks : Pattern := many Text.isBlank

def blanks1 : Pattern := many1 Text.isBlank

def char (c : Char) : Pattern := .one (· == c)

end Pattern

end JavaDeps
