import JavaDeps.Java.Method
import JavaDeps.Proofs.Java.Calls
import JavaDeps.Proofs.Pattern.Layout

/-!
# Methods that can be looked for

The name of a method is read as a written pattern, and so is the name of a variable. A name whose
characters stand for themselves never leads to a flaw.
-/

namespace JavaDeps.Java

open Pattern

/-! ## Searching for pieces -/

/-- The search for a pattern with groups one after the other is not refused. -/
theorem search_straight {switches : Switches} {written : String} {p : Pattern} {top : Nat}
    (hparse : parse switches written = .ok p) (hp : p.straight? 0 = some top) (text : List Char) :
    search switches written text = .ok ((p.find? text).map Found.stop) := by
  cases hfind : p.find? text with
  | none =>
    rw [search, hparse]
    simp only [bind, Except.bind, hfind]
    rfl
  | some found =>
    rcases fits_of_find? hp hfind with ⟨before, piece, rest, -, hfits⟩
    rw [search, hparse]
    simp only [bind, Except.bind, hfind, hfits.unreversed]
    rfl

/-- The search for a pattern of pieces is not refused. -/
theorem search_layout (switches : Switches) {pieces : List Piece} {written : String}
    (hwritten : written.toList = layout pieces)
    (hpieces : ∀ piece ∈ pieces, piece.isSound = true)
    (hspaced : switches.contains .spaced = false)
    (halphabet : (switches.contains .ascii && switches.contains .unicode) = false)
    (text : List Char) : ∃ found?, search switches written text = .ok found? := by
  rcases parse_layout hwritten hpieces hspaced halphabet with ⟨p, -, hparse, hstraight⟩
  exact ⟨_, search_straight hparse hstraight text⟩

/-! ## Pieces -/

def blankPiece : Piece := .plain (.marked (.escape 's') .many)

def blankPiece1 : Piece := .plain (.marked (.escape 's') .many1)

def unopened : Shape := .marked (.set true [.char '\x7b']) .many

def unclosed : Shape := .marked (.set true [.char '\x7d']) .many

def typePiece : Piece :=
  .capture (.seq (.set false [.range 'A' 'Z'])
    (.marked (.set false [.range 'a' 'z', .range 'A' 'Z', .range '0' '9', .char '_']) .many))

def namePiece (name : String) : Piece := .plain (.word name.toList)

def signaturePieces : List Piece :=
  [.plain (.marked (.group (.seq (.word "@Override".toList) (.marked (.escape 's') .many1)) [])
      .optional),
    .plain (.marked (.group (.word "public".toList) ["private".toList, "protected".toList])
      .optional),
    blankPiece1,
    .plain (.marked (.set false [.escape 'w', .char '<', .char '>', .escape '[', .escape ']',
      .char ',', .escape 's']) .many1),
    blankPiece1]

def parameterPieces : List Piece :=
  [blankPiece, .plain (.escape '('), .plain unopened, .plain (.escape ')'), blankPiece]

def throwsPieces : List Piece :=
  [.plain (.marked (.group (.seq (.word "throws".toList) unopened) []) .optional), blankPiece]

def bodyPieces : List Piece :=
  [.plain (.escape '\x7b'),
    .capture (.seq unclosed (.marked
      (.group (.seq (.escape '\x7b') (.seq unclosed (.seq (.escape '\x7d') unclosed))) []) .many)),
    .plain (.escape '\x7d')]

def methodPieces (name : String) : List Piece :=
  signaturePieces ++ namePiece name :: (parameterPieces ++ (throwsPieces ++ bodyPieces))

def plainMethodPieces (name : String) : List Piece :=
  namePiece name :: (parameterPieces ++ bodyPieces)

def variablePieces (name : String) : List Piece :=
  [typePiece, blankPiece1] ++ namePiece name :: [blankPiece, .plain (.word ['='])]

def getterPieces (name : String) : List Piece :=
  namePiece name :: [blankPiece, .plain (.word ['=']), blankPiece,
    .capture (.seq (.set false [.range 'a' 'z', .range 'A' 'Z', .char '_'])
      (.marked (.set false [.range 'a' 'z', .range 'A' 'Z', .range '0' '9', .char '_']) .many)),
    .plain (.escape '.'), .plain (.word "get".toList), typePiece, blankPiece, .plain (.escape '(')]

theorem layout_append (pieces more : List Piece) :
    layout (pieces ++ more) = layout pieces ++ layout more :=
  List.flatMap_append

theorem layout_namePiece (name : String) (more : List Piece) :
    layout (namePiece name :: more) = name.toList ++ layout more := rfl

/-- How the pattern of a method is written, piece by piece. -/
theorem writtenMethod_toList (name : String) :
    (writtenMethod name).toList = layout (methodPieces name) := by
  unfold writtenMethod
  rw [methodPieces, layout_append, layout_namePiece]
  simp only [String.toList_append, List.append_assoc]
  congr 1

theorem writtenPlainMethod_toList (name : String) :
    (writtenPlainMethod name).toList = layout (plainMethodPieces name) := by
  unfold writtenPlainMethod
  rw [plainMethodPieces, layout_namePiece]
  simp only [String.toList_append, List.append_assoc]
  exact congrArg (name.toList ++ ·) (by decide)

theorem writtenVariable_toList (name : String) :
    (writtenVariable name).toList = layout (variablePieces name) := by
  unfold writtenVariable
  rw [variablePieces, layout_append, layout_namePiece]
  simp only [String.toList_append, List.append_assoc]
  congr 1

theorem writtenGetter_toList (name : String) :
    (writtenGetter name).toList = layout (getterPieces name) := by
  rw [writtenGetter, getterPieces, layout_namePiece, String.toList_append]
  exact congrArg (name.toList ++ ·) (by decide)

/-! ## Names -/

/-- Whether the characters of a name stand for themselves in a written pattern. -/
def IsOrdinaryName (name : String) : Prop := ∀ c ∈ name.toList, isOrdinary c = true

instance (name : String) : Decidable (IsOrdinaryName name) :=
  decidable_of_iff (name.toList.all isOrdinary = true) List.all_eq_true

theorem isOrdinary_of_isNameChar {c : Char} (h : isNameChar c = true) : isOrdinary c = true := by
  have hspecial : ['\\', '[', '.', '^', '$', '?', '*', '+', '\x7b', '(', ')', '|'].all
      (fun d => !isNameChar d) = true := by decide
  rw [isOrdinary, Bool.not_eq_true']
  refine Bool.eq_false_iff.2 (fun hc => ?_)
  have hc' := List.all_eq_true.1 hspecial c (by simpa using hc)
  rw [h] at hc'
  cases hc'

/-- A name that is ordinary can stand among other pieces. -/
theorem isSound_name (front more : List Piece) {name : String} (hname : IsOrdinaryName name)
    (hfront : ∀ piece ∈ front, piece.isSound = true)
    (hmore : ∀ piece ∈ more, piece.isSound = true) :
    ∀ piece ∈ front ++ namePiece name :: more, piece.isSound = true := by
  intro piece hpiece
  rcases List.mem_append.1 hpiece with hpiece | hpiece
  · exact hfront piece hpiece
  · rcases List.mem_cons.1 hpiece with rfl | hpiece
    · have hall : name.toList.all isOrdinary = true := List.all_eq_true.2 hname
      simp [namePiece, Piece.isSound, Piece.shape, Shape.isSound, Shape.height, hall]
    · exact hmore piece hpiece

/-- For an ordinary name a type is found or not, and nothing fails. -/
theorem variableType_ok {name : String} (hname : IsOrdinaryName name) (body : List Char) :
    ∃ type?, variableType body name = .ok type? := by
  rcases search_layout [] (writtenVariable_toList name)
    (isSound_name [typePiece, blankPiece1] _ hname (by decide) (by decide)) rfl rfl body
    with ⟨first?, hfirst⟩
  rcases search_layout [] (writtenGetter_toList name)
    (isSound_name [] _ hname (by decide) (by decide)) rfl rfl body with ⟨second?, hsecond⟩
  unfold variableType
  rw [hfirst]
  cases first? with
  | some found => exact ⟨_, rfl⟩
  | none =>
    show ∃ type?, (search [] (writtenGetter name) body >>= _) = .ok type?
    rw [hsecond]
    cases second? with
    | some found => exact ⟨_, rfl⟩
    | none => exact ⟨_, rfl⟩

/-- Dependencies of variables are found for all calls. -/
theorem variableDependencies_ok (body : List Char) (recorded : List String)
    {calls : List (String × String)} (hcalls : ∀ call ∈ calls, IsOrdinaryName call.1) :
    ∃ deps, variableDependencies body recorded calls = .ok deps := by
  induction calls with
  | nil => exact ⟨[], rfl⟩
  | cons call rest ih =>
    rcases ih (fun call' hcall' => hcalls call' (List.mem_cons_of_mem _ hcall')) with
      ⟨others, hrest⟩
    rw [variableDependencies]
    split
    · show ∃ deps, (variableDependencies body recorded rest >>= _) = .ok deps
      rw [hrest]
      exact ⟨_, rfl⟩
    · rcases variableType_ok (hcalls call List.mem_cons_self) body with ⟨type?, htype⟩
      rw [htype]
      show ∃ deps, (variableDependencies body recorded rest >>= _) = .ok deps
      rw [hrest]
      cases type? with
      | none => exact ⟨_, rfl⟩
      | some type => exact ⟨_, rfl⟩

theorem isOrdinaryName_of_mem_variableCalls {body : List Char} {call : String × String}
    (h : call ∈ variableCall.captures2 body) : IsOrdinaryName call.1 := by
  -- A variable was read as a name, which has no signs of written patterns.
  have hname : IsName isSmall call.1.toList := reads_name.1 (reads_captures2 rfl rfl h).1
  intro c hc
  exact isOrdinary_of_isNameChar (hname.all (fun _ => isNameChar_of_isSmall) c hc)

/-- The dependencies in the body of a method can be given, whatever the body is. -/
theorem bodyDependencies_ok (fieldType? : String → Option String) (body : List Char) :
    ∃ deps, bodyDependencies fieldType? body = .ok deps := by
  rcases variableDependencies_ok body
    (recordStatic ((repositoryCall.captures2 body).map callText) (staticCall.captures2 body)).1
    (fun call (hcall : call ∈ variableCall.captures2 body) =>
      isOrdinaryName_of_mem_variableCalls hcall) with ⟨deps, hdeps⟩
  unfold bodyDependencies
  show ∃ deps, (variableDependencies body _ _ >>= _) = .ok deps
  rw [hdeps]
  exact ⟨_, rfl⟩

end JavaDeps.Java
