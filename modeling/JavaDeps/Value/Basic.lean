import JavaDeps.Fault
import JavaDeps.SortedSet
import JavaDeps.Value.Double

/-!
# Values

Edits and table rows carry values of any shape: nothing, truth values, numbers, texts, lists and
records. Only single values can be keys of a table or members of a set.
-/

namespace JavaDeps

/-- A single value. -/
inductive Atom where
  | null
  | bool (b : Bool)
  | int (n : Int)
  | decimal (x : Double)
  | str (s : String)
  deriving DecidableEq, Repr

/-- A value: a single one, a list or a record with its fields in order. -/
inductive Value where
  | atom (a : Atom)
  | list (items : List Value)
  | obj (fields : List (String × Value))
  deriving Repr

namespace Atom

/-- Truth values count as the numbers one and zero, and doubles without a fraction as integers. -/
def canonical : Atom → Atom
  | .bool b => .int (if b then 1 else 0)
  | .decimal x => match x.toInt? with
    | some n => .int n
    | none => .decimal x
  | a => a

/-- Equality of single values, in which truth values count as numbers. -/
def same (a b : Atom) : Bool := decide (a.canonical = b.canonical)

instance : BEq Atom := ⟨same⟩

/-- Whether two single values compare as equal. They are the same, and what is no number differs
even from itself. -/
def equals (a b : Atom) : Bool := a == b && !(a == .decimal .nan)

def display : Atom → String
  | .null => "None"
  | .bool b => if b then "True" else "False"
  | .int n => Text.ofInt n
  | .decimal x => x.text
  | .str s => s

def quoted : Atom → String
  | .str s => Text.quoted s
  | a => a.display

def kind : Atom → String
  | .null => "NoneType"
  | .bool _ => "bool"
  | .int _ => "int"
  | .decimal _ => "float"
  | .str _ => "str"

/-- Whether a value counts as true: it is neither nothing, false, zero nor an empty text. -/
def isTruthy : Atom → Bool
  | .null => false
  | .bool b => b
  | .int n => n != 0
  | .decimal x => !x.isZero
  | .str s => !s.isEmpty

/-- A number as a quotient. Truth values are numbers as well. -/
def quotient? : Atom → Option (Int × Nat)
  | .bool b => some (if b then 1 else 0, 1)
  | .int n => some (n, 1)
  | .decimal x => x.quotient?
  | _ => none

/-- Whether a number is below another one. An infinity is below or above all other numbers, and
what is no number is neither. -/
def numberBelow (a b : Atom) : Bool :=
  match a.quotient?, b.quotient? with
  | some (m, d), some (n, e) => decide (m * e < n * d)
  | _, _ => match a, b with
    | .decimal .nan, _ => false
    | _, .decimal .nan => false
    | .decimal (.infinite negative), b => negative && !b.same (.decimal (.infinite true))
    | _, .decimal (.infinite negative) => !negative
    | _, _ => false

def isNumber : Atom → Bool
  | .bool _ => true
  | .int _ => true
  | .decimal _ => true
  | _ => false

/-- Whether a value comes before another one. Only texts, and only numbers, have an order. -/
def before (a b : Atom) : Except Fault Bool :=
  match a, b with
  | .str s, .str t => .ok (Text.precedes s t)
  | a, b =>
    if a.isNumber && b.isNumber then .ok (a.numberBelow b) else .error (.unordered a.kind b.kind)

/-- In sets, single values are ordered by their text, texts after other values. -/
instance : Ranked Atom :=
  ⟨fun a => [(a.display, match a with | .str _ => 1 | _ => 0)]⟩

end Atom

namespace Value

@[match_pattern] abbrev null : Value := .atom .null

@[match_pattern] abbrev bool (b : Bool) : Value := .atom (.bool b)

@[match_pattern] abbrev int (n : Int) : Value := .atom (.int n)

@[match_pattern] abbrev str (s : String) : Value := .atom (.str s)

instance : Inhabited Value := ⟨null⟩

def kind : Value → String
  | .atom a => a.kind
  | .list _ => "list"
  | .obj _ => "dict"

def isTruthy : Value → Bool
  | .atom a => a.isTruthy
  | .list items => !items.isEmpty
  | .obj fields => !fields.isEmpty

def ofNames (names : List String) : Value := .list (names.map str)

def asKey : Value → Except Fault Atom
  | .atom a => .ok a
  | v => .error (.unhashable v.kind)

/-- The elements of a list, the characters of a text or the field names of a record. -/
def elements : Value → Except Fault (List Value)
  | .list items => .ok items
  | .str s => .ok (s.toList.map (fun c => str (String.ofList [c])))
  | .obj fields => .ok (fields.map (fun f => str f.1))
  | v => .error (.notIterable v.kind)

def length : Value → Except Fault Nat
  | .list items => .ok items.length
  | .str s => .ok s.length
  | .obj fields => .ok fields.length
  | v => .error (.noLength v.kind)

def isText (v : Value) (s : String) : Bool :=
  match v with
  | .str t => t == s
  | _ => false

/-- Whether a text is an element of a list, a part of a text or a field name of a record. -/
def holds (v : Value) (s : String) : Except Fault Bool :=
  match v with
  | .list items => .ok (items.any (·.isText s))
  | .str t => .ok (Text.within s t)
  | .obj fields => .ok (fields.any (fun f => f.1 == s))
  | v => .error (.notSearchable v.kind)

def textFor (member : String) : Value → Except Fault String
  | .str s => .ok s
  | v => .error (.noMember v.kind member)

/-- The texts of a list of values, numbered from the given place. -/
def textsFrom : Nat → List Value → Except Fault (List String)
  | _, [] => .ok []
  | place, v :: rest => match v with
    | .str s => (textsFrom (place + 1) rest).map (s :: ·)
    | v => .error (.notText place v.kind)

def texts (v : Value) : Except Fault (List String) :=
  match v.elements with
  | .ok items => textsFrom 0 items
  | .error _ => .error .notJoinable

def field? (v : Value) (name : String) : Option Value :=
  match v with
  | .obj fields => fields.lookup name
  | _ => none

mutual

def quoted : Value → String
  | .atom a => a.quoted
  | .list items => "[" ++ quotedItems items ++ "]"
  | .obj fields => "\x7b" ++ quotedFields fields ++ "\x7d"

def quotedItems : List Value → String
  | [] => ""
  | [v] => quoted v
  | v :: rest => quoted v ++ ", " ++ quotedItems rest

def quotedFields : List (String × Value) → String
  | [] => ""
  | [(name, v)] => Text.quoted name ++ ": " ++ quoted v
  | (name, v) :: rest => Text.quoted name ++ ": " ++ quoted v ++ ", " ++ quotedFields rest

end

/-- The text that stands for a value: a text stands for itself. -/
def display : Value → String
  | .atom a => a.display
  | v => v.quoted

end Value

end JavaDeps
