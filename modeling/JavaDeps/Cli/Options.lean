import JavaDeps.Text.Integer

/-!
# Options

The words of a command line are flags, which may take a value, and plain words. A flag can be
written in full, by an unambiguous beginning of its long name or by its short name; short flags can
be joined.
-/

namespace JavaDeps.Cli

/-- The flags. -/
inductive Flag where
  | help
  | output
  | web
  | port
  | direct
  deriving DecidableEq, Repr

namespace Flag

def all : List Flag := [help, output, web, port, direct]

def longName : Flag → String
  | help => "--help"
  | output => "--output"
  | web => "--web"
  | port => "--port"
  | direct => "--direct"

def shortName : Flag → String
  | help => "-h"
  | output => "-o"
  | web => "-w"
  | port => "-p"
  | direct => "-d"

def takesValue : Flag → Bool
  | output => true
  | port => true
  | _ => false

def ofLong? (name : String) : Option Flag := all.find? (fun f => f.longName == name)

def ofShort? (name : String) : Option Flag := all.find? (fun f => f.shortName == name)

end Flag

/-- What a command line sets. -/
structure Options where
  source : String
  output : String
  web : Bool
  port : Int
  direct : Bool
  deriving DecidableEq, Repr

/-- What a command line asks for: a run, the help text, or nothing that could be understood. -/
inductive Reading where
  | run (options : Options)
  | help
  | refused
  deriving DecidableEq, Repr

/-! ## Words -/

/-- What a word of a command line is. -/
inductive Word where
  | plain (text : String)
  /-- The mark after which all words are plain. -/
  | divider
  /-- A flag, whether it was given by its short name, and the text that is written with it: behind
  an equals sign, or right behind a short name. -/
  | flag (f : Flag) (isShort : Bool) (attached : Option String)
  | unknown
  deriving DecidableEq, Repr

def fullName? (name : String) : Option (Flag × Bool) :=
  match Flag.ofLong? name with
  | some f => some (f, false)
  | none => (Flag.ofShort? name).map (fun f => (f, true))

/-- The part before the first equals sign, and what is behind it. -/
def splitValue (text : String) : String × Option String :=
  match Text.splitAtMost text '=' 1 with
  | [name, value] => (name, some value)
  | _ => (text, none)

/-- Whether a word is a negative number, with or without a point. -/
def isNegativeNumber (text : String) : Bool :=
  match text.toList with
  | '-' :: rest =>
    let rest := if rest.getLast? == some '\n' then rest.dropLast else rest
    let whole := rest.takeWhile Text.isDigit
    match rest.dropWhile Text.isDigit with
    | [] => !whole.isEmpty
    | '.' :: fraction => !fraction.isEmpty && fraction.all Text.isDigit
    | _ => false
  | _ => false

/-- A word with a dash that is no full name: the beginning of a long name, joined short flags, a
negative number, or something unknown. Nothing when a beginning fits several names. -/
def classifyDashed (text : String) : Option Word :=
  let rest : Word :=
    if isNegativeNumber text || text.toList.contains ' ' then .plain text else .unknown
  if Text.starts text "--" then
    let (name, attached) := splitValue text
    match Flag.all.filter (fun f => Text.starts f.longName name) with
    | [] => some rest
    | [f] => some (.flag f false attached)
    | _ => none
  else
    match Flag.ofShort? (Text.takeChars text 2) with
    | some f => some (.flag f true (some (Text.dropChars text 2)))
    | none => some rest

def classify (text : String) : Option Word :=
  if !Text.starts text "-" then some (.plain text)
  else match fullName? text with
    | some (f, isShort) => some (.flag f isShort none)
    | none =>
      if text == "-" then some (.plain text)
      else
        let (name, attached) := splitValue text
        match fullName? name with
        | some (f, isShort) => some (.flag f isShort attached)
        | none => classifyDashed text

/-- What the words are. After a divider all of them are plain. -/
def classifyAll : List String → Option (List Word)
  | [] => some []
  | text :: rest =>
    if text == "--" then some (.divider :: rest.map .plain)
    else match classify text, classifyAll rest with
      | some w, some ws => some (w :: ws)
      | _, _ => none

/-! ## Flags -/

/-- The flags of a word, with the value that is attached to the last one. Nothing when a text is
attached to a flag that takes none; but the characters behind the short name of such a flag are
further short names. -/
def unjoin (f : Flag) (isShort : Bool) : List Char → Option (List (Flag × Option String))
  | [] => none
  | c :: rest =>
    if f.takesValue then some [(f, some (String.ofList (c :: rest)))]
    else if !isShort then none
    else match Flag.ofShort? (String.ofList ['-', c]) with
      | none => none
      | some next =>
        let others := if rest.isEmpty then some [(next, none)] else unjoin next true rest
        others.map ((f, none) :: ·)

def wordFlags (f : Flag) (isShort : Bool) : Option String → Option (List (Flag × Option String))
  | none => some [(f, none)]
  | some text =>
    if f.takesValue then some [(f, some text)] else unjoin f isShort text.toList

/-- Gives a flag its value when it has none and needs one: the next word, which has to be plain. -/
def takeValue : List (Flag × Option String) → List Word →
    Option (List (Flag × Option String) × List Word)
  | [], words => some ([], words)
  | [(f, none)], words =>
    if f.takesValue then
      match words with
      | .plain value :: rest => some ([(f, some value)], rest)
      | _ => none
    else some ([(f, none)], words)
  | e :: rest, words => (takeValue rest words).map (fun r => (e :: r.1, r.2))

/-- What was read so far. -/
structure Progress where
  source? : Option String := none
  output : String
  web : Bool := false
  port : Int := 8000
  direct : Bool := false
  /-- Whether some word could not be placed. -/
  surplus : Bool := false
  /-- Whether the last word was the source. -/
  afterSource : Bool := false

/-- What a flag does: it changes what was read, or ends the reading. -/
def Progress.apply (p : Progress) : Flag × Option String → Except Reading Progress
  | (.help, _) => .error .help
  | (.output, value?) => .ok { p with output := value?.getD p.output }
  | (.web, _) => .ok { p with web := true }
  | (.direct, _) => .ok { p with direct := true }
  | (.port, value?) => match Text.readInt (value?.getD "") with
    | .ok n => .ok { p with port := n }
    | .error _ => .error .refused

/-- What was read, when nothing is left over and nothing is missing. -/
def Progress.finish (p : Progress) : Reading :=
  match p.source? with
  | some source =>
    if p.surplus then .refused else .run ⟨source, p.output, p.web, p.port, p.direct⟩
  | none => .refused

def Progress.place (p : Progress) (text : String) : Progress :=
  match p.source? with
  | none => { p with source? := some text, afterSource := true }
  | some _ => { p with surplus := true, afterSource := false }

/-- Reads words. A flag may use the word after it, so that the bound, the number of words, goes down
by one or two. -/
def readWords : Nat → Progress → List Word → Reading
  | _, p, [] => p.finish
  | 0, _, _ :: _ => .refused
  | bound + 1, p, w :: rest => match w with
    | .plain text => readWords bound (p.place text) rest
    | .divider =>
      let surplus := p.surplus || (p.source?.isSome && !p.afterSource)
      readWords bound { p with surplus := surplus, afterSource := false } rest
    | .unknown => readWords bound { p with surplus := true, afterSource := false } rest
    | .flag f isShort attached =>
      match (wordFlags f isShort attached).bind (fun flags => takeValue flags rest) with
      | none => .refused
      | some (flags, rest) =>
        match flags.foldlM Progress.apply { p with afterSource := false } with
        | .ok p => readWords bound p rest
        | .error r => r

/-- Reads a command line. The given name is that of the output when none is set. -/
def Options.parse (output : String) (words : List String) : Reading :=
  match classifyAll words with
  | some ws => readWords ws.length { output := output } ws
  | none => .refused

end JavaDeps.Cli
