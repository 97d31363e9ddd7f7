import JavaDeps.Pattern.Character
import JavaDeps.Text.Identifier

/-!
# Reading written patterns

Characters stand for themselves, and `. ^ $ * + ? { } [ ] \ | ( )` have their usual meaning as
operators.

The file defines:
- `repeatLast`, which reads repetitions, and `readSwitches`, which reads switches;
- `readAlternatives`, which reads patterns with groups;
- `Written.read`, the reader of whole patterns.
-/

namespace JavaDeps.Pattern

/-! ## Repetitions -/

/-- A part of a sequence: one part, or the parts of a group that only holds them together. -/
inductive Part where
  | one (p : Written)
  | several (ps : List Written)

namespace Part

def parts : Part → List Written
  | one p => [p]
  | several ps => ps

def repeatable : Part → Except Flaw Written
  | one (.place _) => .error .nothingToRepeat
  | one (.rep _ _ _ _) => .error .repeatedTwice
  | one p => .ok p
  | several ps => .ok (Written.sequence ps)

end Part

def repetitionBound : Nat := 4294967295

def repetitions (digits : List Char) : Read Nat :=
  let n := Text.numberOf 10 digits
  if Text.digitLimit < digits.length then throw (.tooManyDigits digits.length)
  else if repetitionBound ≤ n then throw .tooManyRepetitions
  else return n

/-- Reads a number of repetitions after its opening brace. Without a count up to a closing brace,
the brace stands for itself and nothing is read. -/
def readCount : Read (Option (Nat × Option Nat)) := do
  let opened ← get
  if ← isNext '\x7d' then return none
  else
    let low ← takeAll Text.isAsciiDigit
    let high ← if ← accept ',' then takeAll Text.isAsciiDigit else pure low
    if !(← accept '\x7d') then
      set opened
      return none
    else
      let least ← if low.isEmpty then pure 0 else repetitions low
      if high.isEmpty then return some (least, none)
      else
        let most ← repetitions high
        if most < least then fail .reversedCount ((← here) - opened.place)
        else return some (least, some most)

/-- Reads the mark that tells in which order a repetition tries its lengths. -/
def readGreed : Read Greed := do
  if ← accept '?' then return .lazy
  else do
    let keeps ← accept '+'
    return if keeps then .possessive else .greedy

/-- Repeats the last part of a sequence, given in reverse. `start` is the place after the mark of
the repetition. -/
def repeatLast (start least : Nat) (most : Option Nat) : List Part → Read (List Part)
  | [] => do fail .nothingToRepeat ((← here) - start + 1)
  | last :: before => do
    match last.repeatable with
    | .error flaw => fail flaw ((← here) - start + 1)
    | .ok body =>
      let greed ← readGreed
      return .one (.rep body least most greed) :: before

/-! ## Switches -/

/-- A token that is no switch: letters are unknown switches, and anything else stands where
something is missing. -/
def noSwitch {α : Type} (t : Token) (missing : Flaw) : Read α :=
  let flaw := match t with
    | .plain c => if Text.isLetter c then Flaw.unknownSwitch else missing
    | .escaped _ => missing
  fail flaw t.chars.length

def switchOf? : Token → Option Switch
  | .plain c => Switch.ofLetter? c
  | .escaped _ => none

/-- Reads switches to be turned on, and the character that ends them. The number bounds the
switches. -/
def readOn (s : Switch) : Nat → Switches → Read (Switches × Char)
  | 0, _ => fail .missingSwitchEnd 0
  | bound + 1, before => do
    if s == .bytes then fail .byteSwitch 0
    else
      let on := s :: before
      if s.choosesAlphabet && on.any (fun t => t.choosesAlphabet && t != s) then
        fail .severalAlphabets 0
      else
        match ← take with
        | none => fail .missingSwitchEnd 0
        | some t => match t, switchOf? t with
          | _, some next => readOn next bound on
          | .plain c, none =>
            if c == ')' || c == '-' || c == ':' then return (on, c)
            else noSwitch t .missingSwitchEnd
          | .escaped _, none => noSwitch t .missingSwitchEnd

/-- Reads switches to be turned off, up to a colon. The number bounds the switches. -/
def readOff (s : Switch) : Nat → Switches → Read Switches
  | 0, _ => fail .missingColon 0
  | bound + 1, before => do
    if s.choosesAlphabet then fail .alphabetTurnedOff 0
    else
      match ← take with
      | none => fail .missingColon 0
      | some t =>
        if t == .plain ':' then return s :: before
        else match switchOf? t with
          | some next => readOff next bound (s :: before)
          | none => noSwitch t .missingColon

def readFirstOff : Read Switches := do
  match ← take with
  | none => fail .missingSwitch 0
  | some t => match switchOf? t with
    | some s => readOff s ((← get).rest.length + 1) []
    | none => noSwitch t .missingSwitch

/-- Reads the switches of a group after their first token, a switch or a minus sign. Switches
without a colon are for the whole pattern, and there is no answer. -/
def readSwitches (first : Option Switch) : Read (Option (Switches × Switches)) := do
  let (on, stop) ← match first with
    | some s => readOn s ((← get).rest.length + 1) []
    | none => pure ([], '-')
  if stop == ')' then
    modify (fun r => { r with switches := on ++ r.switches })
    return none
  else if on.contains .template then fail .wholeTurnedOn 1
  else
    let off ← if stop == '-' then readFirstOff else pure []
    if off.contains .template then fail .wholeTurnedOff 1
    else if on.any off.contains then fail .onAndOff 1
    else return some (on, off)

/-! ## Conditions and group names -/

def readGroupName (stop : Char) : Read String := do
  let name ← readName stop "group name"
  if Text.isIdentifier name then return String.ofList name
  else fail (.badGroupName (String.ofList name)) (name.length + 1)

def groupBound : Nat := 1073741823

/-- Reads the group that a condition asks for, by name or by number. -/
def readCondition : Read Nat := do
  let chars ← readName ')' "group name"
  let name := String.ofList chars
  let back := chars.length + 1
  let index ←
    if Text.isIdentifier chars then
      match (← get).names.lookup name with
      | some index => pure index
      | none => fail (.unknownGroupName name) back
    else
      match Text.readInt name with
      | .error _ => fail (.badGroupName name) back
      | .ok (.negSucc _) => fail (.badGroupName name) back
      | .ok (.ofNat n) =>
        if n == 0 then fail .badGroupNumber back
        else if groupBound ≤ n then fail (.noSuchGroup n) back
        else
          let place := (← here) - back
          modify (fun r =>
            { r with asked := if r.asked.any (·.1 == n) then r.asked else r.asked ++ [(n, place)] })
          pure n
  checkBehind index
  return index

def openGroup (name : Option String) : Read Nat := do
  let r ← get
  let index := r.nextGroup
  match name with
  | none => set { r with widths := r.widths ++ [none] }
  | some name => match r.names.lookup name with
    | some earlier => fail (.groupNamedTwice name index earlier) (name.length + 1)
    | none => set { r with widths := r.widths ++ [none], names := (name, index) :: r.names }
  return index

def closeGroup (index : Nat) (body : Written) : Read Unit :=
  modify (fun r => { r with widths := r.widths.set (index - 1) (some body.width) })

/-! ## Patterns with groups -/

/-- Groups and the sequences in them can be nested so many times. -/
def depthBound : Nat := 980

/-- What the mark after an opening parenthesis and a question mark says about a group. -/
inductive GroupKind where
  | capturing (name : Option String)
  | plain
  | switched (on off : Switches)
  | atomic
  | ahead (positive : Bool)
  | behind (positive : Bool)
  | condition (index : Nat)
  | reference (index : Written)
  | remark
  | wholeSwitches

/-- Reads a remark up to its closing parenthesis. The number bounds the tokens. -/
def skipRemark (start : Nat) : Nat → Read Unit
  | 0 => fail .unterminatedRemark 0
  | bound + 1 => do
    match ← take with
    | none => fail .unterminatedRemark ((← here) - start)
    | some t => if t == .plain ')' then return () else skipRemark start bound

def readBehindKind : Read GroupKind := do
  match ← take with
  | none => fail .unexpectedEnd 0
  | some t =>
    if t == .plain '=' then return .behind true
    else if t == .plain '!' then return .behind false
    else fail (.unknownExtension ("<" ++ t.text)) (t.chars.length + 2)

def readNamedKind : Read GroupKind := do
  match ← take with
  | none => fail .unexpectedEnd 0
  | some (.plain '<') => return .capturing (some (← readGroupName '>'))
  | some (.plain '=') =>
    let name ← readGroupName ')'
    match (← get).names.lookup name with
    | none => fail (.unknownGroupName name) (name.length + 1)
    | some index => return .reference (← reference index (name.length + 1))
  | some t => fail (.unknownExtension ("P" ++ t.text)) (t.chars.length + 2)

/-- Reads the mark after `(?`. `start` is the place of the parenthesis. -/
def readKind (start : Nat) : Read GroupKind := do
  match ← take with
  | none => fail .unexpectedEnd 0
  | some t => match t with
    | .plain 'P' => readNamedKind
    | .plain ':' => return .plain
    | .plain '#' =>
      skipRemark start ((← get).rest.length + 1)
      return .remark
    | .plain '=' => return .ahead true
    | .plain '!' => return .ahead false
    | .plain '<' => readBehindKind
    | .plain '(' => return .condition (← readCondition)
    | .plain '>' => return .atomic
    | t =>
      if t == .plain '-' || (switchOf? t).isSome then
        match ← readSwitches (switchOf? t) with
        | some (on, off) => return .switched on off
        | none => return .wholeSwitches
      else fail (.unknownExtension t.text) (t.chars.length + 1)

/-- Reads the closing parenthesis of the group that starts at the given place. -/
def readClose (start : Nat) : Read Unit := do
  if ← accept ')' then return () else fail .unterminatedGroup ((← here) - start)

def isSpacing (c : Char) : Bool := c == ' ' || (9 ≤ c.toNat && c.toNat ≤ 13)

/-- Passes over a remark up to the end of the line. The number bounds the tokens. -/
def skipLine : Nat → Read Unit
  | 0 => return ()
  | bound + 1 => do
    match ← take with
    | none => return ()
    | some t => if t == .plain '\n' then return () else skipLine bound

/-- Reads what a token other than an opening parenthesis stands for, after the token. -/
def readPart (before : List Part) (c : Char) : Read (List Part) := do
  let leaf (p : Written) : Read (List Part) := return .one p :: before
  match c with
  | '[' => leaf (← readSet)
  | '.' => leaf .any
  | '^' => leaf (.place .start)
  | '$' => leaf (.place .finish)
  | '?' => repeatLast (← here) 0 (some 1) before
  | '*' => repeatLast (← here) 0 none before
  | '+' => repeatLast (← here) 1 none before
  | '\x7b' =>
    let start ← here
    match ← readCount with
    | some (least, most) => repeatLast start least most before
    | none => leaf (.code c.toNat)
  | c => leaf (.code c.toNat)

mutual

/-- Reads alternatives up to a closing parenthesis or the end. `depth` tells how deep they are
nested, and the first number bounds the calls. -/
def readAlternatives : Nat → Nat → Bool → Read (List Written)
  | 0, _, _ => throw .tooDeep
  | bound + 1, depth, spaced => do
    if depthBound < depth then throw .tooDeep
    else
      let first ← readSequence bound (depth + 1) spaced (depth == 0) []
      let others ← readOthers bound depth spaced
      return Written.choice (first :: others)
termination_by structural n => n

def readOthers : Nat → Nat → Bool → Read (List (List Written))
  | 0, _, _ => throw .tooDeep
  | bound + 1, depth, spaced => do
    if ← accept '|' then
      let r ← get
      let spaced := if depth == 0 then r.switches.contains .spaced else spaced
      let next ← readSequence bound (depth + 1) spaced false []
      return next :: (← readOthers bound depth spaced)
    else return []
termination_by structural n => n

/-- Reads the parts of a sequence up to a bar, a closing parenthesis or the end. `first` tells
whether switches for the whole pattern may stand here; the parts before are given in reverse. -/
def readSequence : Nat → Nat → Bool → Bool → List Part → Read (List Written)
  | 0, _, _, _, _ => throw .tooDeep
  | bound + 1, depth, spaced, first, before => do
    let t ← peek
    if t == none || t == some (.plain '|') || t == some (.plain ')') then
      return before.reverse.flatMap Part.parts
    else
      match ← take with
      | none => return before.reverse.flatMap Part.parts
      | some (.escaped c) =>
        let part ← readEscape c
        readSequence bound depth spaced first (.one part :: before)
      | some (.plain c) =>
        if spaced && isSpacing c then readSequence bound depth spaced first before
        else if spaced && c == '#' then
          skipLine ((← get).rest.length + 1)
          readSequence bound depth spaced first before
        else if c == '(' then
          let part ← readGroup bound depth spaced (first && before.isEmpty)
          match part with
          | some part => readSequence bound depth spaced first (part :: before)
          | none =>
            let r ← get
            let spaced := spaced || first && r.switches.contains .spaced
            readSequence bound depth spaced first before
        else
          let parts ← readPart before c
          readSequence bound depth spaced first parts
termination_by structural n => n

/-- Reads a group after its opening parenthesis. Remarks and switches for the whole pattern give no
part. -/
def readGroup : Nat → Nat → Bool → Bool → Read (Option Part)
  | 0, _, _, _ => throw .tooDeep
  | bound + 1, depth, spaced, first => do
    let start := (← here) - 1
    let kind ← if ← accept '?' then readKind start else pure (.capturing none)
    match kind with
    | .remark => return none
    | .reference p => return some (.one p)
    | .wholeSwitches =>
      if first then return none else fail .lateSwitches ((← here) - start)
    | .capturing name =>
      let index ← openGroup name
      let body := Written.sequence (← readAlternatives bound (depth + 1) spaced)
      readClose start
      closeGroup index body
      return some (.one (.group index body))
    | .plain =>
      let parts ← readAlternatives bound (depth + 1) spaced
      readClose start
      return some (.several parts)
    | .switched on off =>
      let spaced := (spaced || on.contains .spaced) && !off.contains .spaced
      let parts ← readAlternatives bound (depth + 1) spaced
      readClose start
      return some (.one (.switched on off (Written.sequence parts)))
    | .atomic =>
      let parts ← readAlternatives bound (depth + 1) spaced
      readClose start
      return some (.one (.atomic (Written.sequence parts)))
    | .ahead positive =>
      let parts ← readAlternatives bound (depth + 1) spaced
      readClose start
      return some (.one (.ahead positive (Written.sequence parts)))
    | .behind positive =>
      let outer := (← get).behind
      modify (fun r => { r with behind := some (outer.getD r.widths.length) })
      let parts ← readAlternatives bound (depth + 1) spaced
      modify (fun r => { r with behind := outer })
      readClose start
      return some (.one (.behind positive (Written.sequence parts)))
    | .condition index =>
      let yes ← readSequence bound (depth + 1) spaced false []
      let no ← if ← accept '|' then
          let no ← readSequence bound (depth + 1) spaced false []
          if ← isNext '|' then fail .tooManyBranches 0 else pure no
        else pure []
      readClose start
      return some (.one (.ifGroup index (Written.sequence yes) (Written.sequence no)))
termination_by structural n => n

end

def readWhole : Read Written := do
  set (← checkEnd (← get))
  let r ← get
  let parts ← readAlternatives (4 * r.text.length + 8) 0 (r.switches.contains .spaced)
  let r ← get
  if r.switches.contains .ascii && r.switches.contains .unicode then throw .severalAlphabets
  else if !r.rest.isEmpty then fail .unbalancedGroup 0
  else
    match r.asked.find? (fun asked => r.widths.length < asked.1) with
    | some (index, place) => throw (.flawed (.noSuchGroup index) (Position.ofOffset r.text place))
    | none => return Written.sequence parts

/-- The written pattern that a text is, and the switches of the whole pattern. Some switches are on
from the start. -/
def Written.read (switches : Switches) (text : List Char) :
    Except PatternError (Written × Switches) := do
  let (written, r) ← readWhole.run { text := text, rest := text, switches := switches }
  return (written, r.switches)

end JavaDeps.Pattern
