import JavaDeps.Pattern.Basic

/-!
# Written patterns

The parts of a pattern as they are written down, before switches decide what they mean. Characters
are given by their codes, so that also a code that belongs to no character can be written; it fits
nothing.
-/

namespace JavaDeps.Pattern

/-- A switch that changes what the parts of a pattern mean. -/
inductive Switch where
  /-- Letters fit in upper and lower case. -/
  | anyCase
  /-- The start and the end of every line count as start and end. -/
  | lines
  /-- A dot fits a line feed as well. -/
  | dotAll
  /-- Blanks and remarks between the parts are passed over. -/
  | spaced
  /-- Classes and letters are those of ASCII. -/
  | ascii
  /-- Classes and letters are those of all scripts. -/
  | unicode
  /-- Classes and letters are those of bytes. -/
  | bytes
  /-- A switch that only a whole pattern can have, and that changes nothing. -/
  | template
  deriving DecidableEq, Repr

abbrev Switches := List Switch

namespace Switch

def ofLetter? : Char → Option Switch
  | 'i' => some anyCase
  | 'm' => some lines
  | 's' => some dotAll
  | 'x' => some spaced
  | 'a' => some ascii
  | 'u' => some unicode
  | 'L' => some bytes
  | 't' => some template
  | _ => none

def choosesAlphabet : Switch → Bool
  | ascii => true
  | unicode => true
  | bytes => true
  | _ => false

/-- The switches inside a group that turns some on and some off. A new alphabet replaces the one
before. -/
def change (outer on off : Switches) : Switches :=
  let kept := if on.any choosesAlphabet then outer.filter (fun s => !s.choosesAlphabet) else outer
  (on ++ kept).filter (fun s => !off.contains s)

end Switch

/-- The classes of characters. -/
inductive CharClass where
  | digit
  | blank
  | word
  deriving DecidableEq, Repr

/-- A member of a set of characters. -/
inductive Member where
  | code (n : Nat)
  | range (low high : Nat)
  | cls (c : CharClass) (negative : Bool)
  deriving DecidableEq, Repr

/-- A condition on a place, before switches decide what it means. -/
inductive Place where
  | start
  | finish
  | textStart
  | textEnd
  | wordEdge
  | notWordEdge
  deriving DecidableEq, Repr

/-- The smallest and the largest number of characters that a part can fit. -/
structure Width where
  least : Nat
  most : Nat
  deriving DecidableEq, Repr

namespace Width

def unbounded : Nat := Nat.pow 2 64

def plus (v w : Width) : Width :=
  ⟨min (v.least + w.least) unbounded, min (v.most + w.most) unbounded⟩

def orElse (v w : Width) : Width := ⟨min v.least w.least, max v.most w.most⟩

def times (w : Width) (least : Nat) (most : Option Nat) : Width :=
  ⟨min (w.least * least) unbounded, match most with
    | some n => min (w.most * n) unbounded
    | none => if w.most == 0 then 0 else unbounded⟩

end Width

/-- A written pattern. A reference to a group knows the width of the group. -/
inductive Written where
  | empty
  | code (n : Nat)
  | any
  | set (negative : Bool) (members : List Member)
  | place (p : Place)
  | seq (first second : Written)
  | alt (left right : Written)
  | rep (body : Written) (least : Nat) (most : Option Nat) (greed : Greed)
  | group (index : Nat) (body : Written)
  | switched (on off : Switches) (body : Written)
  | atomic (body : Written)
  | back (index : Nat) (width : Width)
  | ahead (positive : Bool) (body : Written)
  | behind (positive : Bool) (body : Written)
  | ifGroup (index : Nat) (yes no : Written)

namespace Written

def width : Written → Width
  | empty => ⟨0, 0⟩
  | code _ => ⟨1, 1⟩
  | any => ⟨1, 1⟩
  | set _ _ => ⟨1, 1⟩
  | place _ => ⟨0, 0⟩
  | seq p q => p.width.plus q.width
  | alt p q => p.width.orElse q.width
  | rep p least most _ => p.width.times least most
  | group _ p => p.width
  | switched _ _ p => p.width
  | atomic p => p.width
  | back _ w => w
  | ahead _ _ => ⟨0, 0⟩
  | behind _ _ => ⟨0, 0⟩
  | ifGroup _ p q => p.width.orElse q.width

def sequence : List Written → Written
  | [] => empty
  | [p] => p
  | p :: rest => seq p (sequence rest)

/-! ## Alternatives -/

/-- Whether two parts that have no parts of their own are the same. -/
def sameLeaf : Written → Written → Bool
  | code m, code n => m == n
  | any, any => true
  | set b ms, set c ns => b == c && ms == ns
  | place p, place q => p == q
  | back m _, back n _ => m == n
  | _, _ => false

/-- Takes the leaves with which all alternatives start out of them. The first alternative is given
apart from the others. -/
def commonStart : List Written → List (List Written) → List Written × List (List Written)
  | [], others => ([], [] :: others)
  | p :: rest, others =>
    if others.all (fun other => (other.head?.map (sameLeaf p)).getD false) then
      let (common, alternatives) := commonStart rest (others.map List.tail)
      (p :: common, alternatives)
    else ([], (p :: rest) :: others)

def members? : List Written → Option (List Member)
  | [code n] => some [.code n]
  | [set false ms] => some ms
  | _ => none

def firstOf : List Written → Written
  | [] => empty
  | [p] => p
  | p :: rest => alt p (firstOf rest)

/-- The parts that stand for alternatives: what they share, then a set of characters when each
alternative fits one character, and a choice otherwise. -/
def choice : List (List Written) → List Written
  | [] => []
  | [only] => only
  | first :: others =>
    let (common, alternatives) := commonStart first others
    match alternatives.mapM members? with
    | some sets => common ++ [set false sets.flatten]
    | none => common ++ [firstOf (alternatives.map sequence)]

end Written

end JavaDeps.Pattern
