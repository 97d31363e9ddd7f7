import JavaDeps.Proofs.Java.Methods
import JavaDeps.Proofs.Pattern.Chain

/-!
# Methods that are looked for by their names

A name whose characters stand for themselves is searched for as it is. The patterns with which this
is done are given here as patterns, with the name as a fixed text in them.
-/

namespace JavaDeps.Java

open Pattern

/-! ## Patterns of methods -/

def isSignatureChar (c : Char) : Bool :=
  Text.isWordChar c || c == '<' || c == '>' || c == '[' || c == ']' || c == ',' || Text.isBlank c

/-- What stands in front of the name of a method: an annotation and a modifier, which may be
missing, and types. -/
def signature : List Pattern :=
  [.optional (chain ("@Override".toList.map char ++ [blanks1])),
    .optional (chain [char 'p', oneOf [literal "ublic", literal "rivate", literal "rotected"]]),
    blanks1, many1 isSignatureChar, blanks1]

def parameters : List Pattern := [blanks, char '(', many (· != '\x7b'), char ')', blanks]

def throwsClause : List Pattern :=
  [.optional (chain ("throws".toList.map char ++ [many (· != '\x7b')])), blanks]

/-- What is taken as the inside of a body: up to the first closing brace, with pairs of braces in it
where they are needed. -/
def block : Pattern :=
  chain [many (· != '\x7d'),
    .rep (chain [char '\x7b', many (· != '\x7d'), char '\x7d', many (· != '\x7d')]) 0 none .greedy]

def bodyRest : List Pattern := [.group 1 block, char '\x7d']

def declaration (name : List Char) : Pattern :=
  chain (signature ++
    (name.map char ++ (parameters ++ (throwsClause ++ (char '\x7b' :: bodyRest)))))

def plainDeclaration (name : List Char) : Pattern :=
  chain (name.map char ++ (parameters ++ (char '\x7b' :: bodyRest)))

/-! ## What the written patterns mean -/

theorem letters_dotAll : Switch.letters [.dotAll] = .exact := rfl

theorem means_set {negative : Bool} {members : List Member} {accepts : Char → Bool}
    (h : ∀ c, (setAccepts .exact false members c != negative) = accepts c) :
    Means [.dotAll] [setPart negative members] [.one accepts] := by
  refine .one ((meaning_setPart [.dotAll] negative members).trans ?_)
  rw [← funext h]
  rfl

theorem means_blank : Means [.dotAll] [escapedPart 's'] [.one Text.isBlank] := by
  have hblank : ∀ c, (setAccepts .exact false [.cls .blank false] c != false) = Text.isBlank c := by
    simp [setAccepts, Member.accepts, CharClass.accepts]
  exact means_set hblank

theorem means_unless (x : Char) :
    Means [.dotAll] [setPart true [.code x.toNat]] [.one (· != x)] := by
  refine means_set (fun c => ?_)
  rw [setAccepts, fitsCode_exact, Bool.bne_true]
  rfl

/-- The modifiers start with the same letter, which is read apart from them. -/
theorem parts_modifiers : (Shape.group (.word "public".toList)
    ["private".toList, "protected".toList]).parts = wordParts ['p'] ++
      [.alt (Written.sequence (wordParts "ublic".toList))
        (.alt (Written.sequence (wordParts "rivate".toList))
          (Written.sequence (wordParts "rotected".toList)))] := rfl

theorem means_types : Means [.dotAll] (Shape.set false [.escape 'w', .char '<', .char '>',
    .escape '[', .escape ']', .char ',', .escape 's']).parts [.one isSignatureChar] := by
  have htypes : ∀ c, (setAccepts .exact false [.cls .word false, .code '<'.toNat, .code '>'.toNat,
      .code '['.toNat, .code ']'.toNat, .code ','.toNat, .cls .blank false] c != false) =
      isSignatureChar c := by
    intro c
    have hcode : ∀ x ∈ ['<', '>', '[', ']', ','],
        (Member.code x.toNat).accepts .exact false c = (c == x) := by
      intro x hx
      have hsmall : ['<', '>', '[', ']', ','].all (fun x => decide (x.toNat < wideCode)) =
          true := by
        decide
      have hx' := of_decide_eq_true (List.all_eq_true.1 hsmall x hx)
      rw [Member.accepts, if_neg (Nat.not_le.2 hx'), fitsCode_exact]
    have hclass : ∀ k : CharClass, (Member.cls k false).accepts .exact false c =
        k.accepts false c :=
      fun k => Bool.bne_false _
    simp [setAccepts, hcode, hclass, CharClass.accepts, isSignatureChar, Bool.or_assoc,
      -Char.reduceToNat]
  exact means_set htypes

/-- The signature that is written means the one that is looked for. -/
theorem means_signature : Means [.dotAll] (layoutParts 0 signaturePieces) signature := by
  have hspace := means_blank.marked .many1
  have hoverride := ((means_word letters_dotAll "@Override".toList).append hspace).marked .optional
  have hchoice := Means.one (Means.orElse (meaning_word letters_dotAll "ublic".toList)
    (Means.orElse (meaning_word letters_dotAll "rivate".toList)
      (meaning_word letters_dotAll "rotected".toList)))
  have hmodifier := ((means_word letters_dotAll ['p']).append hchoice).marked .optional
  rw [← parts_modifiers] at hmodifier
  exact hoverride.append
    (hmodifier.append (hspace.append ((means_types.marked .many1).append hspace)))

theorem means_parameters : Means [.dotAll] (layoutParts 0 parameterPieces) parameters := by
  have hunopened := (means_unless '\x7b').marked .many
  have hopen := Means.one (meaning_char letters_dotAll '(')
  have hclose := Means.one (meaning_char letters_dotAll ')')
  have hblanks := means_blank.marked .many
  exact hblanks.append (hopen.append (hunopened.append (hclose.append hblanks)))

theorem means_throws : Means [.dotAll] (layoutParts 0 throwsPieces) throwsClause := by
  have hunopened := (means_unless '\x7b').marked .many
  have hword := means_word letters_dotAll "throws".toList
  exact ((hword.append hunopened).marked .optional).append (means_blank.marked .many)

theorem means_body : Means [.dotAll] (layoutParts 0 bodyPieces) (char '\x7b' :: bodyRest) := by
  have hunclosed := (means_unless '\x7d').marked .many
  have hopen := Means.one (meaning_char letters_dotAll '\x7b')
  have hclose := Means.one (meaning_char letters_dotAll '\x7d')
  have hpairs := (hopen.append (hunclosed.append (hclose.append hunclosed))).marked .many
  exact hopen.append (((hunclosed.append hpairs).captured 1).append hclose)

/-- What is written for an ordinary name is the pattern of its declaration. -/
theorem parse_writtenMethod {name : String} (hname : IsOrdinaryName name) :
    parse [.dotAll] (writtenMethod name) = .ok (declaration name.toList) ∧
      (declaration name.toList).straight? 0 = some 1 := by
  have hname' := means_word letters_dotAll name.toList
  refine parse_layout_eq ?_ (writtenMethod_toList name)
    (isSound_name signaturePieces _ hname (by decide) (by decide)) rfl rfl
  rw [methodPieces, layoutParts_append]
  exact means_signature.append
    (hname'.append (means_parameters.append (means_throws.append means_body)))

theorem parse_writtenPlainMethod {name : String} (hname : IsOrdinaryName name) :
    parse [.dotAll] (writtenPlainMethod name) = .ok (plainDeclaration name.toList) ∧
      (plainDeclaration name.toList).straight? 0 = some 1 := by
  have hname' := means_word letters_dotAll name.toList
  refine parse_layout_eq ?_ (writtenPlainMethod_toList name)
    (isSound_name [] _ hname (by decide) (by decide)) rfl rfl
  exact hname'.append (means_parameters.append means_body)

/-! ## Searching for a name -/

/-- The body of the first declaration with a name, or else of the first such name with a parameter
list and a body. -/
def literalBody (name text : List Char) : Option (List Char) :=
  (((declaration name).find? text).or ((plainDeclaration name).find? text)).bind
    (fun found => found.stop.capture? 1)

def literalDependencies (fieldType? : String → Option String) (name text : List Char) :
    Except PatternError NameSet :=
  match literalBody name text with
  | some body => bodyDependencies fieldType? body
  | none => .ok SortedSet.empty

/-- A name whose characters stand for themselves is searched for as it is. -/
theorem methodBody_literal {name : String} (hname : IsOrdinaryName name) (text : List Char) :
    methodBody name text = .ok (literalBody name.toList text) := by
  have hparse := parse_writtenMethod hname
  have hplain := parse_writtenPlainMethod hname
  have hfind : findMethod name text = .ok ((((declaration name.toList).find? text).or
      ((plainDeclaration name.toList).find? text)).map Found.stop) := by
    rw [findMethod, search_straight hparse.1 hparse.2]
    cases (declaration name.toList).find? text with
    | some found => rfl
    | none => exact search_straight hplain.1 hplain.2 text
  unfold methodBody literalBody
  rw [hfind]
  cases hfound : ((declaration name.toList).find? text).or
      ((plainDeclaration name.toList).find? text) with
  | none => rfl
  | some found =>
    -- Either pattern has read its group where it is found.
    have hbody : ∃ body, found.stop.capture? 1 = some body := by
      rcases Option.or_eq_some_iff.1 hfound with hfirst | ⟨-, hsecond⟩
      · exact captured_of_find? hparse.2 Nat.one_pos hfirst
      · exact captured_of_find? hplain.2 Nat.one_pos hsecond
    rcases hbody with ⟨body, hbody⟩
    simp only [Option.map_some, Option.bind_some, hbody]

/-- The dependencies of a method are those that are found by searching for its name. -/
theorem methodDependencies_literal {name : String} (hname : IsOrdinaryName name)
    (fieldType? : String → Option String) (text : List Char) :
    ∃ deps, methodDependencies fieldType? text name = .ok deps ∧
      literalDependencies fieldType? name.toList text = .ok deps := by
  unfold methodDependencies literalDependencies
  rw [methodBody_literal hname]
  cases literalBody name.toList text with
  | none => exact ⟨_, rfl, rfl⟩
  | some body =>
    rcases bodyDependencies_ok fieldType? body with ⟨deps, hdeps⟩
    exact ⟨deps, by simp only [hdeps], hdeps⟩

end JavaDeps.Java
