import JavaDeps.Analysis.Selected
import JavaDeps.Proofs.Analysis.Recorded
import JavaDeps.Proofs.Java.Bodies

/-!
# Types of declared names

A declared name is recorded with its type, of which type arguments are dropped if they stand on one
line. The file says which type is recorded last, and when it is the name of a class.
-/

namespace JavaDeps

namespace Java

def declarations (text : List Char) : List (String × String) :=
  [fieldDeclaration, parameterDeclaration, localDeclaration].flatMap (·.captures2 text)

/-- The types that a text declares a name with, without type arguments. -/
def typesOf (text : List Char) (name : String) : List String :=
  ((declarations text).filter (·.2 == name)).map (bareType ·.1)

theorem typedNames_eq (text : List Char) :
    typedNames text = (declarations text).map (fun d => (bareType d.1, d.2)) := rfl

/-- A declaration reads a type, with or without arguments. -/
theorem reads_of_mem_declarations {text : List Char} {d : String × String}
    (h : d ∈ declarations text) : (typeName ++ .optional typeArguments).Reads d.1.toList := by
  have hclass (h : typeName.Reads d.1.toList) :
      (typeName ++ .optional typeArguments).Reads d.1.toList :=
    ⟨_, [], (List.append_nil _).symm, h, Pattern.reads_optional.2 (Or.inl rfl)⟩
  simp only [declarations, List.flatMap_cons, List.flatMap_nil, List.append_nil,
    List.mem_append] at h
  rcases h with h | h | h
  · exact (Pattern.reads_captures2 rfl rfl h).1
  · exact hclass (Pattern.reads_captures2 rfl rfl h).1
  · exact hclass (Pattern.reads_captures2 rfl rfl h).1

theorem dropTypeArguments_append {name : List Char} (h : '<' ∉ name) (rest : List Char) :
    dropTypeArguments false (name ++ rest) = name ++ dropTypeArguments false rest := by
  induction name with
  | nil => rfl
  | cons c name ih => grind [dropTypeArguments]

/-- Type arguments are closed on their line exactly if no line ends in them. -/
theorem closesOnLine_append {inside : List Char} (h : '>' ∉ inside) :
    closesOnLine (inside ++ ['>']) = true ↔ '\n' ∉ inside := by
  induction inside with
  | nil => simp [closesOnLine]
  | cons c inside ih => grind [closesOnLine]

theorem dropTypeArguments_inside {inside : List Char} (h : '>' ∉ inside) :
    dropTypeArguments true (inside ++ ['>']) = [] := by
  induction inside with
  | nil => rfl
  | cons c inside ih => grind [dropTypeArguments]

/-- Of a type on one line the name of the class is left, and of no other one. -/
theorem isName_bareType_iff {type : String}
    (h : (typeName ++ .optional typeArguments).Reads type.toList) :
    (IsName isCapital (bareType type).toList ↔ '\n' ∉ type.toList) ∧
      ('\n' ∉ type.toList → (bareType type).toList = type.toList.takeWhile (· != '<')) := by
  rcases h with ⟨name, arguments, htype, hname, harguments⟩
  have hname := reads_name.1 hname
  have hall := hname.all (fun _ => isNameChar_of_isCapital)
  have hopen : '<' ∉ name := fun h => absurd (hall _ h) (by decide)
  have hline : '\n' ∉ name := fun h => absurd (hall _ h) (by decide)
  rw [bareType, String.toList_ofList, htype, dropTypeArguments_append hopen,
    List.takeWhile_append_of_pos (all_bne.2 hopen)]
  rcases Pattern.reads_optional.1 harguments with
    rfl | ⟨_, _, rfl, ⟨_, inside, rfl, hless, hinside⟩, hclose⟩
  · simp [dropTypeArguments, hname, hline]
  · have hinside := all_bne.1 (Pattern.reads_many1.1 hinside).1
    rw [Pattern.reads_char.1 hless, Pattern.reads_char.1 hclose]
    have hcloses := closesOnLine_append hinside
    by_cases hbreak : '\n' ∈ inside
    · -- The bracket is left, which no name has in it.
      refine ⟨iff_of_false (fun h => ?_) (by simp [hbreak]), by simp [hbreak]⟩
      refine absurd (h.all (fun _ => isNameChar_of_isCapital) '<' ?_) (by decide)
      simp [dropTypeArguments, hcloses, hbreak]
    · simp [dropTypeArguments, hcloses, dropTypeArguments_inside hinside, hname, hline, hbreak]

end Java

/-! ## Recorded types -/

namespace Project

theorem facts_withGraph (p : Project) (r : Except Fault Graph) :
    (p.withGraph r).2.facts = p.facts := by
  cases r <;> rfl

/-- A finding is recorded among the facts even if entering it fails. -/
theorem facts_enter (p : Project) (f : Finding) : (p.enter f).2.facts = p.facts.record f := by
  cases f with
  | declares file name qualified =>
    simp only [enter, declare]
    split <;> rfl
  | uses source target label => exact p.facts_withGraph _
  | usesOnce source target label => exact p.facts_withGraph _
  | _ => rfl

/-- Facts are recorded up to the finding that fails. -/
theorem facts_enterAll (p : Project) (findings : List Finding) :
    ∃ done, done <+: findings ∧ ((p.enterAll findings).1 = .ok () → done = findings) ∧
      (p.enterAll findings).2.facts = done.foldl Facts.record p.facts := by
  induction findings generalizing p with
  | nil => exact ⟨[], List.prefix_refl _, fun _ => rfl, rfl⟩
  | cons f rest ih =>
    have hfacts := p.facts_enter f
    rw [enterAll]
    rcases hf : p.enter f with ⟨_ | _, q⟩ <;> rw [hf] at hfacts
    · exact ⟨[f], List.prefix_append [f] rest, (fun hok => by cases hok), hfacts⟩
    · rcases ih q with ⟨done, hdone, hall, hfold⟩
      refine ⟨f :: done, List.cons_prefix_cons.2 ⟨rfl, hdone⟩, fun hok => by rw [hall hok], ?_⟩
      rw [hfold, hfacts, List.foldl_cons]

end Project

section

variable (file : SourcePath) (name : String)

def Finding.typing? : Finding → Option String
  | .types f n type => if f = file ∧ n = name then some type else none
  | _ => none

/-- A declared type is that of the last finding about the name. -/
theorem declaredType?_record (facts : Facts) (f : Finding) :
    (facts.record f).declaredType? file name =
      (f.typing? file name).or (facts.declaredType? file name) := by
  cases f with
  | types f n type =>
    simp only [Facts.record, Facts.declaredType?, Table.get?_alter, Finding.typing?]
    by_cases hf : f = file <;> by_cases hn : n = name <;> cases h : facts.fieldTypes.get? file <;>
      simp_all [Table.get?_set, Table.getD]
  | listsTypes f =>
    simp only [Facts.record, Facts.declaredType?, Table.get?_ensure, Finding.typing?]
    by_cases hf : f = file <;> cases h : facts.fieldTypes.get? file <;> simp_all [Table.getD]
  | _ => rfl

/-- The last type that is recorded stays. -/
theorem declaredType?_foldl (findings : List Finding) (facts : Facts) :
    (findings.foldl Facts.record facts).declaredType? file name =
      (findings.filterMap (·.typing? file name)).getLast?.or (facts.declaredType? file name) := by
  induction findings generalizing facts with
  | nil => rfl
  | cons f rest ih =>
    rw [List.foldl_cons, ih, declaredType?_record, List.filterMap_cons]
    cases f.typing? file name <;> simp [List.getLast?_cons, Option.or_some]

theorem typing?_usesClassOnce {g : Graph} {className label : String} :
    (usesClassOnce g file className label).filterMap (·.typing? file name) = [] := by
  unfold usesClassOnce
  split <;> rfl

/-- The round at the fields types a name as its text does. -/
theorem types_fieldRound (p : Project) (text : List Char) :
    (fieldRound p file text).filterMap (·.typing? file name) = Java.typesOf text name := by
  simp only [fieldRound, fieldFindings, Java.typedNames_eq, List.flatMap_map, List.filterMap_append,
    List.filterMap_flatMap, List.filterMap_cons, typing?_usesClassOnce, Java.typesOf]
  induction Java.declarations text with
  | nil => simp [Finding.typing?]
  | cons d rest ih =>
    by_cases hname : d.2 = name <;> simp_all [Finding.typing?]

end

def Project.enterTypes (p : Project) (file : SourcePath) (text : List Char) :
    Except Fault Unit × Project :=
  p.enterAll (fieldRound p file text)

/-- The type of a name is that of its last declaration that was entered, and it is the one that the
class of the name is looked up by. It is the name of this class exactly if it was written on one
line. -/
theorem recorded_type_bare_iff (p : Project) (file : SourcePath) (text : List Char) :
    (∀ name, ∃ types, types <+: Java.typesOf text name ∧
      ((p.enterTypes file text).1 = .ok () → types = Java.typesOf text name) ∧
      (p.enterTypes file text).2.facts.declaredType? file name =
        types.getLast?.or (p.facts.declaredType? file name)) ∧
    (∀ name type, (p.enterTypes file text).2.facts.declaredType? file name = some type →
      ∀ text?, typeOf? (p.enterTypes file text).2.facts text? file name = some type ∧
        fieldTypeIn? (p.enterTypes file text).2.facts text? file name = some type) ∧
    ∀ d ∈ Java.declarations text,
      usesClassOnce p.graph file (Java.bareType d.1) ("field: " ++ d.2) ⊆ fieldRound p file text ∧
      (Java.IsName Java.isCapital (Java.bareType d.1).toList ↔ '\n' ∉ d.1.toList) ∧
      ('\n' ∉ d.1.toList → (Java.bareType d.1).toList = d.1.toList.takeWhile (· != '<')) := by
  refine ⟨fun name => ?_, fun name type htype text? => ?_, fun d hd => ⟨fun f hf => ?_,
    Java.isName_bareType_iff (Java.reads_of_mem_declarations hd)⟩⟩
  · rcases p.facts_enterAll (fieldRound p file text) with ⟨done, hdone, hall, hfacts⟩
    rw [← types_fieldRound file name p text]
    refine ⟨_, hdone.filterMap _, fun hok => by rw [hall hok], ?_⟩
    rw [Project.enterTypes, hfacts, declaredType?_foldl]
  · simp [typeOf?, fieldTypeIn?, htype]
  · simp only [fieldRound, fieldFindings, Java.typedNames_eq, List.mem_append, List.mem_flatMap]
    exact Or.inl (Or.inl ⟨_, List.mem_map_of_mem hd, List.mem_cons_of_mem _ hf⟩)

def knowsMap : Project :=
  (Project.fresh .deep false (.ofText ".")).record (.declares (.ofText "Map.java") "Map" "Map")

/-- A type with a line break keeps its arguments, and its class is not found. -/
theorem broken_type_recorded :
    (knowsMap.enterTypes (.ofText "A.java")
        "class A \x7b Map<A,\n B> m; \x7d".toList).2.facts.declaredType? (.ofText "A.java") "m" =
      some "Map<A,\n B>" ∧
      ¬ Java.IsName Java.isCapital "Map<A,\n B>".toList ∧
      knowsMap.graph.otherFile? (.ofText "A.java") "Map" = some (.ofText "Map.java") ∧
      knowsMap.graph.otherFile? (.ofText "A.java") "Map<A,\n B>" = none := by
  decide +kernel

end JavaDeps
