import JavaDeps.Proofs.Analysis.Deep
import JavaDeps.Proofs.Java.Declarations
import JavaDeps.Proofs.Text

/-!
# How calls are resolved

The plain analysis resolves a call by the simple name of a class alone. A class that several files
declare is taken to be in the one that is listed last, whatever a file imports.
-/

namespace JavaDeps

/-! ## What is recorded -/

namespace Graph

theorem mem_names_record {f : Finding} {g : Graph} {source target : SourcePath} {label : String} :
    label ∈ (g.record f).names source target ↔
      label ∈ g.names source target ∨ .uses source target label = f ∨
        .usesOnce source target label = f := by
  have hother : ∀ {s t l}, ¬ (s = source ∧ t = target) → ¬ (source = s ∧ target = t ∧ label = l) :=
    fun h h' => h ⟨h'.1.symm, h'.2.1.symm⟩
  rw [names_record, List.mem_append]
  cases f with
  | uses s t l =>
    by_cases h : s = source ∧ t = target
    · rcases h with ⟨rfl, rfl⟩
      simp [Finding.labelsFor]
    · simp [Finding.labelsFor, h, hother h]
  | usesOnce s t l =>
    by_cases h : s = source ∧ t = target
    · rcases h with ⟨rfl, rfl⟩
      by_cases hl : l ∈ g.names s t
      · -- Nothing is entered, but the label was there.
        simp only [Finding.labelsFor, hl, not_true, and_false, if_false, List.not_mem_nil,
          or_false, Finding.usesOnce.injEq, true_and, reduceCtorEq, false_or]
        exact ⟨Or.inl, fun h => h.elim id (fun h => h ▸ hl)⟩
      · simp [Finding.labelsFor, hl]
    · simp [Finding.labelsFor, h, hother h]
  | _ => simp [Finding.labelsFor]

/-- Labels come from the graph before or from the findings. -/
theorem mem_names_recordAll {findings : List Finding} {g : Graph} {source target : SourcePath}
    {label : String} :
    label ∈ (g.recordAll findings).names source target ↔
      label ∈ g.names source target ∨ .uses source target label ∈ findings ∨
        .usesOnce source target label ∈ findings := by
  induction findings generalizing g with
  | nil => simp
  | cons f rest ih =>
    rw [recordAll_cons, ih, mem_names_record]
    simp only [List.mem_cons]
    grind

/-- A label that is only entered once is on its edge once, unless it was there before. -/
theorem count_names_recordAll {findings : List Finding} {g : Graph} {source target : SourcePath}
    {label : String} (honce : .uses source target label ∉ findings) :
    ((g.recordAll findings).names source target).count label =
      max ((g.names source target).count label)
        (if .usesOnce source target label ∈ findings then 1 else 0) := by
  induction findings generalizing g with
  | nil => simp
  | cons f rest ih =>
    have hstep : ((g.record f).names source target).count label =
        max ((g.names source target).count label)
          (if .usesOnce source target label = f then 1 else 0) := by
      rw [names_record, List.count_append]
      cases f with
      | uses s t l =>
        have hother : ¬ (s = source ∧ t = target ∧ l = label) := by
          rintro ⟨rfl, rfl, rfl⟩
          exact honce List.mem_cons_self
        grind [Finding.labelsFor]
      | usesOnce s t l =>
        have hold := @List.count_pos_iff _ _ _ label (g.names source target)
        grind [Finding.labelsFor]
      | _ => simp [Finding.labelsFor]
    rw [recordAll_cons, ih (fun hmem => honce (List.mem_cons_of_mem f hmem)), hstep]
    simp only [List.mem_cons]
    grind

/-- Imports come from the graph before or from the findings. -/
theorem mem_imports_recordAll {findings : List Finding} {g : Graph} {file : SourcePath}
    {name : String} :
    name ∈ ((g.recordAll findings).imports.getD file SortedSet.empty).toList ↔
      name ∈ (g.imports.getD file SortedSet.empty).toList ∨ .imports file name ∈ findings := by
  induction findings generalizing g with
  | nil => simp
  | cons f rest ih =>
    have hstep : name ∈ ((g.record f).imports.getD file SortedSet.empty).toList ↔
        name ∈ (g.imports.getD file SortedSet.empty).toList ∨ .imports file name = f := by
      cases f with
      | imports file' name' =>
        by_cases h : file' = file
        · subst h
          simp [record, Table.getD_alter, SortedSet.mem_insert, or_comm]
        · have h' : ¬ (file = file' ∧ name = name') := fun h' => h h'.1.symm
          simp [record, Table.getD_alter, h, h']
      | usesOnce source target label =>
        by_cases hl : label ∈ g.names source target <;> simp [record, hl, setLabels]
      | _ => simp [record, setLabels]
    rw [recordAll_cons, ih, hstep]
    simp only [List.mem_cons]
    grind

/-- The last class that is declared under a name wins. -/
theorem get?_classes_declares (g : Graph) (file : SourcePath) (name qualified key : String) :
    (g.record (.declares file name qualified)).classes.get? key =
      if name = key ∨ qualified = key then some file else g.classes.get? key := by
  simp only [record, Table.get?_set, beq_iff_eq]
  by_cases hq : qualified = key <;> by_cases hn : name = key <;> simp [hq, hn]

end Graph

/-! ## Which file a class is taken to be in -/

/-- Whether a text declares a class that has the given simple or qualified name. -/
def Java.declares (text : List Char) (key : String) : Bool :=
  (declaredTypes text).any (fun name => name == key || qualifiedName text name == key)

/-- A file is listed for the names that it declares, in place of the file before. -/
theorem get?_classes_declarationFindings (g : Graph) (file : SourcePath) (text : List Char)
    (key : String) :
    (g.recordAll (declarationFindings file text)).classes.get? key =
      if Java.declares text key = true then some file else g.classes.get? key := by
  have hlist : declarationFindings file text =
      (Java.declaredTypes text).map (fun name => .declares file name (qualifiedName text name)) :=
        rfl
  rw [hlist, Java.declares]
  -- A class that is declared twice in the file gives the same answer, so the order is of no matter.
  generalize Java.declaredTypes text = names
  induction names generalizing g with
  | nil => simp
  | cons name rest ih =>
    rw [List.map_cons, Graph.recordAll_cons, ih, Graph.get?_classes_declares]
    by_cases hrest : rest.any (fun n => n == key || qualifiedName text n == key) = true
    · simp [hrest]
    · simp [hrest]

/-- The last file of a listing that declares a class is the one that the class is listed with. -/
theorem get?_classes_declarations (g : Graph) (sources : List (SourcePath × List Char))
    (key : String) :
    (g.recordAll (sources.flatMap (fun e => declarationFindings e.1 e.2))).classes.get? key =
      (((sources.filter (fun e => Java.declares e.2 key)).map Prod.fst).getLast?).or
        (g.classes.get? key) := by
  induction sources generalizing g with
  | nil => simp
  | cons e rest ih =>
    rw [List.flatMap_cons, Graph.recordAll_append, ih, get?_classes_declarationFindings]
    by_cases he : Java.declares e.2 key = true
    · simp only [if_pos he, List.filter_cons, List.map_cons, List.getLast?_cons]
      cases ((rest.filter (fun e => Java.declares e.2 key)).map Prod.fst).getLast? <;> rfl
    · simp only [if_neg he, List.filter_cons]

/-- The files below a directory that declare a class of a simple name, in listing order. -/
def Disk.declarers (d : Disk) (root : SourcePath) (name : String) : List SourcePath :=
  ((d.sources root).filter (fun e => (Java.declaredTypes e.2).contains name)).map Prod.fst

theorem not_dot_of_isNameChar {c : Char} (h : Java.isNameChar c = true) : c ≠ '.' := by
  rintro rfl
  exact absurd h (by decide)

theorem not_dot_of_isName {first : Char → Bool}
    (hfirst : ∀ c, first c = true → Java.isNameChar c = true) {name : List Char}
    (h : Java.IsName first name) : '.' ∉ name := fun hmem =>
  not_dot_of_isNameChar (h.all hfirst '.' hmem) rfl

/-- Declared types are written without a dot. -/
theorem not_dot_of_mem_declaredTypes {text : List Char} {name : String}
    (h : name ∈ Java.declaredTypes text) : '.' ∉ name.toList :=
  not_dot_of_isName (fun _ => Java.isNameChar_of_isCapital) (Java.isName_of_mem_declaredTypes h)

/-- The last part of the qualified name of a class is its simple name. -/
theorem lastPart_qualifiedName {text : List Char} {name : String} (h : '.' ∉ name.toList) :
    Text.lastPart (qualifiedName text name) '.' = name := by
  unfold qualifiedName
  by_cases hp : ((Java.packageName? text).getD "").isEmpty = true
  · rw [if_pos hp, Text.lastPart_of_not_mem h]
  · rw [if_neg hp, Text.lastPart_dotted h]

/-- Only a class in no package has a qualified name without a dot. -/
theorem qualifiedName_simple {text : List Char} {name : String}
    (h : '.' ∉ (qualifiedName text name).toList) : qualifiedName text name = name := by
  unfold qualifiedName at h ⊢
  by_cases hp : ((Java.packageName? text).getD "").isEmpty = true
  · rw [if_pos hp]
  · rw [if_neg hp] at h
    exact absurd (by simp) h

/-- A text declares a simple name only as the simple name of a class. -/
theorem declares_simple {text : List Char} {key : String} (hkey : '.' ∉ key.toList) :
    Java.declares text key = (Java.declaredTypes text).contains key := by
  rw [Bool.eq_iff_iff, Java.declares, List.any_eq_true, List.contains_iff_mem]
  simp only [Bool.or_eq_true, beq_iff_eq]
  constructor
  · rintro ⟨name, hname, rfl | rfl⟩
    · exact hname
    · rwa [qualifiedName_simple hkey]
  · exact fun hmem => ⟨key, hmem, Or.inl rfl⟩

/-- A text declares a name only by declaring its last part. -/
theorem lastPart_mem_declaredTypes {text : List Char} {key : String}
    (h : Java.declares text key = true) : Text.lastPart key '.' ∈ Java.declaredTypes text := by
  rcases List.any_eq_true.1 h with ⟨name, hname, heq⟩
  have hdot := not_dot_of_mem_declaredTypes hname
  simp only [Bool.or_eq_true, beq_iff_eq] at heq
  rcases heq with rfl | rfl
  · rwa [Text.lastPart_of_not_mem hdot]
  · rwa [lastPart_qualifiedName hdot]

/-- Under a qualified name a text declares a type of the last part. -/
theorem mem_declaredTypes_of_declares {text : List Char} {package name : String}
    (hname : '.' ∉ name.toList) (h : Java.declares text (package ++ "." ++ name) = true) :
    name ∈ Java.declaredTypes text := by
  have hlast := lastPart_mem_declaredTypes h
  rwa [Text.lastPart_dotted hname] at hlast

/-! ## Analysed graphs -/

section

variable (root : SourcePath) (d : Disk)

/-- Calls leave the listed classes alone. -/
theorem classes_analyzed (g : Graph) :
    (g.analyzed d).classes = (g.recordAll (g.foundDeclarations d)).classes := by
  refine Graph.classes_recordAll _ (fun f hf => ?_)
  rcases List.mem_flatMap.1 hf with ⟨e, -, hfe⟩
  rcases mem_callFindings hfe with ⟨_, rfl⟩ | ⟨_, _, _, _, rfl⟩ <;> simp

/-- A simple name stands for the class of the last file in the listing that declares it. -/
theorem get?_classes_simple {name : String} (hname : '.' ∉ name.toList) :
    ((Graph.ofRoot root).analyzed d).classes.get? name = (d.declarers root name).getLast? := by
  have hfilter : (d.sources root).filter (fun e => Java.declares e.2 name) =
      (d.sources root).filter (fun e => (Java.declaredTypes e.2).contains name) := by
    simp only [declares_simple hname]
  rw [classes_analyzed, Graph.foundDeclarations, get?_classes_declarations]
  show Option.or ((((d.sources root).filter _).map Prod.fst).getLast?) none = _
  rw [hfilter, Option.or_none, Disk.declarers]

/-- A qualified name stands for a class of a file that declares it. -/
theorem declared_of_get?_qualified {package name : String} {target : SourcePath}
    (hname : '.' ∉ name.toList)
    (h : ((Graph.ofRoot root).analyzed d).classes.get? (package ++ "." ++ name) = some target) :
    ∃ text, name ∈ Java.declaredTypes text := by
  rw [classes_analyzed, Graph.foundDeclarations, get?_classes_declarations] at h
  have h' : (((d.sources root).filter
      (fun e => Java.declares e.2 (package ++ "." ++ name))).map Prod.fst).getLast?.or none =
        some target := h
  rw [Option.or_none] at h'
  rcases List.mem_map.1 (List.mem_of_getLast? h') with ⟨e, he, -⟩
  exact ⟨e.2, mem_declaredTypes_of_declares hname (List.mem_filter.1 he).2⟩

/-- The labels of an edge are those of the uses that the analysis finds in its source. -/
theorem mem_names_analyzed {source target : SourcePath} {label : String} :
    label ∈ ((Graph.ofRoot root).analyzed d).names source target ↔
      ∃ text, (source, text) ∈ d.sources root ∧
        .uses source target label ∈ callFindings ((Graph.ofRoot root).analyzed d) source text := by
  -- Between the two rounds there are no edges yet, and the classes are final.
  let g := (Graph.ofRoot root).recordAll ((Graph.ofRoot root).foundDeclarations d)
  have hroot : g.root = root := Graph.root_recordAll _ _
  have hcalls : ∀ e : SourcePath × List Char, callFindings g e.1 e.2 =
      callFindings ((Graph.ofRoot root).analyzed d) e.1 e.2 := fun e =>
    callFindings_congr (classes_analyzed d _).symm e.1 e.2
  have hdeclares : label ∉ g.names source target := by
    intro hmem
    rcases Graph.mem_names_recordAll.1 hmem with hmem | hmem | hmem
    · cases hmem
    · rcases mem_foundDeclarations.1 hmem with ⟨_, -, _, -, heq⟩
      cases heq
    · rcases mem_foundDeclarations.1 hmem with ⟨_, -, _, -, heq⟩
      cases heq
  have hanalyzed : (Graph.ofRoot root).analyzed d = g.recordAll (g.foundCalls d) := rfl
  constructor
  · intro hmem
    rw [hanalyzed] at hmem
    rcases Graph.mem_names_recordAll.1 hmem with hmem | hmem | hmem
    · exact absurd hmem hdeclares
    · rcases List.mem_flatMap.1 hmem with ⟨⟨file, text⟩, he, hfe⟩
      rcases mem_callFindings hfe with ⟨_, heq⟩ | ⟨_, _, _, _, heq⟩
      · cases heq
      · cases heq
        rw [hroot] at he
        rw [hcalls (_, text)] at hfe
        exact ⟨text, he, hfe⟩
    · rcases List.mem_flatMap.1 hmem with ⟨e, -, hfe⟩
      rcases mem_callFindings hfe with ⟨_, heq⟩ | ⟨_, _, _, _, heq⟩ <;> cases heq
  · rintro ⟨text, htext, huses⟩
    rw [← hroot] at htext
    rw [← hcalls (source, text)] at huses
    rw [hanalyzed, Graph.mem_names_recordAll]
    exact Or.inr (Or.inl (List.mem_flatMap.2 ⟨(source, text), htext, huses⟩))

/-- What a readable file imports is recorded for it. -/
theorem mem_imports_analyzed {file : SourcePath} {text : List Char} {name : String}
    (hfile : (file, text) ∈ d.sources root) (hname : name ∈ Java.importedNames text) :
    name ∈ (((Graph.ofRoot root).analyzed d).imports.getD file SortedSet.empty).toList := by
  have himport : Finding.imports file name ∈ callFindings
      ((Graph.ofRoot root).recordAll ((Graph.ofRoot root).foundDeclarations d)) file text := by
    simp only [callFindings, List.mem_append]
    exact Or.inl (Or.inl (Or.inl (List.mem_map.2 ⟨name, hname, rfl⟩)))
  rw [Graph.analyzed, Graph.mem_imports_recordAll]
  refine Or.inr (List.mem_flatMap.2 ⟨(file, text), ?_, himport⟩)
  rw [Graph.root_recordAll]
  exact hfile

end

/-- The uses that are found in a text: calls, calls on service variables, and creations. -/
theorem uses_mem_callFindings {g : Graph} {file target : SourcePath} {text : List Char}
    {label : String} :
    .uses file target label ∈ callFindings g file text ↔
      (∃ receiver, (receiver, label) ∈ Java.memberCalls (Java.clean text) ∧
        g.otherFile? file receiver = some target) ∨
      (∃ service, (service, label) ∈ Java.serviceCalls (Java.clean text) ∧
        g.otherFile? file (Java.serviceType service) = some target) ∨
      ∃ type ∈ Java.creations (Java.clean text), label = "new " ++ type ++ "()" ∧
        g.otherFile? file type = some target := by
  simp only [callFindings, usesClass, List.mem_append, List.mem_map, List.mem_filterMap,
    Option.map_eq_some_iff, reduceCtorEq, and_false, exists_const, false_or,
    Finding.uses.injEq, true_and, Prod.exists]
  constructor
  · rintro ((⟨receiver, label, hmem, _, ht, rfl, rfl⟩ | ⟨service, label, hmem, _, ht, rfl, rfl⟩) |
      ⟨type, hmem, _, ht, rfl, rfl⟩)
    · exact Or.inl ⟨receiver, hmem, ht⟩
    · exact Or.inr (Or.inl ⟨service, hmem, ht⟩)
    · exact Or.inr (Or.inr ⟨type, hmem, rfl, ht⟩)
  · rintro (⟨receiver, hmem, ht⟩ | ⟨service, hmem, ht⟩ | ⟨type, hmem, rfl, ht⟩)
    · exact Or.inl (Or.inl ⟨receiver, label, hmem, target, ht, rfl, rfl⟩)
    · exact Or.inl (Or.inr ⟨service, label, hmem, target, ht, rfl, rfl⟩)
    · exact Or.inr ⟨type, hmem, target, ht, rfl, rfl⟩

/-- The label of a creation has a blank in it. -/
theorem creation_label_ne {method type : String} (h : ' ' ∉ method.toList) :
    method ≠ "new " ++ type ++ "()" := by
  rintro rfl
  exact h (by simp)

/-- The label of a creation tells the type. -/
theorem creation_label_injective {type type' : String}
    (h : "new " ++ type ++ "()" = "new " ++ type' ++ "()") : type = type' := by
  have hlist := congrArg String.toList h
  simp only [String.toList_append] at hlist
  exact String.toList_injective
    (List.append_cancel_left (List.append_cancel_right hlist))

/-- The method is called on something else that is taken to be in the target: on another class or on
a service variable. -/
def Graph.CalledOtherwise (g : Graph) (target : SourcePath) (text : List Char)
    (type method : String) : Prop :=
  (∃ receiver ≠ type, (receiver, method) ∈ Java.memberCalls text ∧
    g.classes.get? receiver = some target) ∨
  ∃ service, (service, method) ∈ Java.serviceCalls text ∧
    g.classes.get? (Java.serviceType service) = some target

/-- A static call of a text is a use exactly if its type is listed with the other file. -/
theorem uses_call_iff {g : Graph} {file target : SourcePath} {text : List Char}
    {type method : String} (htype : Java.IsName Java.isCapital type.toList) (hother : target ≠ file)
    (hmethod : ' ' ∉ method.toList)
    (hcall : Java.StaticCall (Java.clean text) type.toList method.toList) :
    .uses file target method ∈ callFindings g file text ↔
      Java.IsName Java.isSmall method.toList ∧ g.classes.get? type = some target ∨
        g.CalledOtherwise target (Java.clean text) type method := by
  simp only [uses_mem_callFindings, Graph.otherFile?_eq_some]
  constructor
  · rintro (⟨receiver, hmem, ht, -⟩ | ⟨service, hmem, ht, -⟩ | ⟨created, -, hlabel, -⟩)
    · by_cases hreceiver : receiver = type
      · subst hreceiver
        exact Or.inl ⟨Java.isName_of_mem_memberCalls hmem, ht⟩
      · exact Or.inr (Or.inl ⟨receiver, hreceiver, hmem, ht⟩)
    · exact Or.inr (Or.inr ⟨service, hmem, ht⟩)
    · exact absurd hlabel (creation_label_ne hmethod)
  · rintro (⟨hname, ht⟩ | ⟨receiver, -, hmem, ht⟩ | ⟨service, hmem, ht⟩)
    · have hmem := Java.mem_memberCalls htype hname hcall
      simp only [String.ofList_toList] at hmem
      exact Or.inl ⟨type, hmem, ht, hother⟩
    · exact Or.inl ⟨receiver, hmem, ht, hother⟩
    · exact Or.inr (Or.inl ⟨service, hmem, ht, hother⟩)

/-- A creation is a use exactly if its type is listed with the other file. -/
theorem uses_creation_iff {g : Graph} {file target : SourcePath} {text : List Char} {type : String}
    (htype : Java.IsName Java.isCapital type.toList) (hother : target ≠ file)
    (hcreates : Java.Creates (Java.clean text) type.toList) :
    .uses file target ("new " ++ type ++ "()") ∈ callFindings g file text ↔
      g.classes.get? type = some target := by
  simp only [uses_mem_callFindings, Graph.otherFile?_eq_some]
  -- A label of the other two kinds is a name, while that of a creation has a blank in it.
  have hblank : ∀ {method : String}, Java.IsName Java.isSmall method.toList → ' ' ∉ method.toList :=
    fun h hmem => absurd (h.all (fun _ => Java.isNameChar_of_isSmall) ' ' hmem) (by decide)
  constructor
  · rintro (⟨receiver, hmem, -⟩ | ⟨service, hmem, -⟩ | ⟨created, -, hlabel, ht, -⟩)
    · exact (creation_label_ne (hblank (Java.isName_of_mem_memberCalls hmem)) rfl).elim
    · exact (creation_label_ne (hblank (Java.isName_of_mem_serviceCalls hmem)) rfl).elim
    · rwa [creation_label_injective hlabel]
  · intro ht
    have hmem := Java.mem_creations htype hcreates
    rw [String.ofList_toList] at hmem
    exact Or.inr (Or.inr ⟨type, hmem, rfl, ht, hother⟩)

/-- How the plain analysis resolves what a file does with a class of another file, if the class is
listed under its qualified name. -/
theorem analyzed_resolves (root : SourcePath) (d : Disk) {file target : SourcePath}
    {text : List Char} {package type : String} (hfile : (file, text) ∈ d.sources root)
    (hsimple : '.' ∉ type.toList)
    (htarget : ((Graph.ofRoot root).analyzed d).classes.get? (package ++ "." ++ type) = some target)
    (hother : target ≠ file) :
    (package ++ "." ++ type ∈ Java.importClause.captures1 text →
      Text.starts (package ++ "." ++ type) "java." = false →
      type ∈ (((Graph.ofRoot root).analyzed d).imports.getD file SortedSet.empty).toList) ∧
    (∀ method, ' ' ∉ method.toList →
      Java.StaticCall (Java.clean text) type.toList method.toList →
      (method ∈ ((Graph.ofRoot root).analyzed d).names file target ↔
        Java.IsName Java.isSmall method.toList ∧ (d.declarers root type).getLast? = some target ∨
        ((Graph.ofRoot root).analyzed d).CalledOtherwise target (Java.clean text) type method)) ∧
    (Java.Creates (Java.clean text) type.toList →
      ("new " ++ type ++ "()" ∈ ((Graph.ofRoot root).analyzed d).names file target ↔
        (d.declarers root type).getLast? = some target)) := by
  have htype : Java.IsName Java.isCapital type.toList := by
    rcases declared_of_get?_qualified _ _ hsimple htarget with ⟨declaring, hmem⟩
    exact Java.isName_of_mem_declaredTypes hmem
  have hclass := get?_classes_simple root d hsimple
  have hnames : ∀ label, label ∈ ((Graph.ofRoot root).analyzed d).names file target ↔
      .uses file target label ∈ callFindings ((Graph.ofRoot root).analyzed d) file text := by
    intro label
    rw [mem_names_analyzed]
    constructor
    · -- A file has one text.
      rintro ⟨text', hfile', huses⟩
      have htext : some text' = some text :=
        (Disk.mem_readable.1 hfile').2.symm.trans (Disk.mem_readable.1 hfile).2
      rwa [← Option.some.inj htext]
    · exact fun huses => ⟨text, hfile, huses⟩
  refine ⟨fun himport hjava => ?_, fun method hmethod hcall => ?_, fun hcreates => ?_⟩
  · refine mem_imports_analyzed _ _ hfile ?_
    refine List.mem_map.2 ⟨package ++ "." ++ type, ?_, Text.lastPart_dotted hsimple⟩
    exact List.mem_filter.2 ⟨himport, by rw [hjava]; rfl⟩
  · rw [hnames, uses_call_iff htype hother hmethod hcall, hclass]
  · rw [hnames, uses_creation_iff htype hother hcreates, hclass]

/-- A call on an imported class of another file, or a creation of an object of it, is entered for
the file of the class exactly if no file that is listed later declares a class of the same simple
name. What the calling file imports is recorded, but plays no part in this. -/
theorem imported_class_resolved_iff (root : String) (s : Session) :
    ∃ t, (do openProject .plain root; analyze : Action Unit) s = (.ok (), t) ∧
      ∀ file text target package type,
        (file, text) ∈ s.disk.sources (SourcePath.ofText root) →
        '.' ∉ type.toList →
        t.project.graph.classes.get? (package ++ "." ++ type) = some target →
        target ≠ file →
        (package ++ "." ++ type ∈ Java.importClause.captures1 text →
          Text.starts (package ++ "." ++ type) "java." = false →
          type ∈ (t.project.graph.imports.getD file SortedSet.empty).toList) ∧
        (∀ method, ' ' ∉ method.toList →
          Java.StaticCall (Java.clean text) type.toList method.toList →
          (method ∈ t.project.graph.names file target ↔
            Java.IsName Java.isSmall method.toList ∧
              (s.disk.declarers (SourcePath.ofText root) type).getLast? = some target ∨
            t.project.graph.CalledOtherwise target (Java.clean text) type method)) ∧
        (Java.Creates (Java.clean text) type.toList →
          ("new " ++ type ++ "()" ∈ t.project.graph.names file target ↔
            (s.disk.declarers (SourcePath.ofText root) type).getLast? = some target)) := by
  have hspelled : ∀ text, ∀ name ∈ Java.declaredTypes text, True ∧ True := by simp
  rcases @openProject_analyze_plain (fun _ => True) hspelled root s with
    ⟨_, t, hrun, -, -, -, hgraph⟩
  refine ⟨t, hrun, ?_⟩
  rw [hgraph]
  exact fun _ _ _ _ _ hfile hsimple htarget hother =>
    analyzed_resolves _ _ hfile hsimple htarget hother

/-- A file that uses the class `C` of the package `a`, which it imports. -/
def importingText : String := "import a.C; class F \x7b int x = C.m(new C()); \x7d"

/-- Files of which two declare a class `C`, in different packages. -/
def shadowedFiles : Disk :=
  (((default : Disk).put (SourcePath.ofText "a/C.java") (.text "package a; class C \x7b \x7d")).put
    (SourcePath.ofText "b/C.java") (.text "package b; class C \x7b \x7d")).put
    (SourcePath.ofText "F.java") (.text importingText)

/-- The text has no comments, and both a call and a creation stand in it. -/
theorem uses_importingText :
    Java.clean importingText.toList = importingText.toList ∧
      Java.StaticCall importingText.toList ['C'] ['m'] ∧
        Java.Creates importingText.toList ['C'] := by
  have htext : Java.clean importingText.toList = importingText.toList ∧
      importingText.toList = "import a.C; class F \x7b int x = ".toList ++
        (['C'] ++ '.' :: (['m'] ++ ([] ++ '(' :: "new C()); \x7d".toList))) ∧
      importingText.toList = "import a.C; class F \x7b int x = C.m(".toList ++
        (['n', 'e', 'w'] ++ ([' '] ++ (['C'] ++ ([] ++ '(' :: ")); \x7d".toList)))) := by
    decide +kernel
  rcases htext with ⟨hclean, hcall, hnew⟩
  refine ⟨hclean, ⟨_, _, _, hcall, by simp, ?_⟩, _, _, _, _, hnew, List.all_eq_true.1 (by decide),
    by simp, by simp⟩
  intro c hc
  have hblank : some ' ' = some c := hc
  cases hblank
  rfl

/-- The class of the package `a` is known, and the last file with a class `C` is another one. -/
theorem declared_shadowedFiles :
    (⟨"", ["F.java"]⟩, importingText.toList) ∈ shadowedFiles.sources (SourcePath.ofText ".") ∧
      ((Graph.ofRoot (SourcePath.ofText ".")).analyzed shadowedFiles).classes.get? "a.C" =
        some ⟨"", ["a", "C.java"]⟩ ∧
      (shadowedFiles.declarers (SourcePath.ofText ".") "C").getLast? =
        some ⟨"", ["b", "C.java"]⟩ := by
  have hsources : shadowedFiles.sources (SourcePath.ofText ".") =
      [(⟨"", ["a", "C.java"]⟩, "package a; class C \x7b \x7d".toList),
        (⟨"", ["b", "C.java"]⟩, "package b; class C \x7b \x7d".toList),
        (⟨"", ["F.java"]⟩, importingText.toList)] := by decide +kernel
  refine ⟨by simp [hsources], ?_, ?_⟩
  · rw [classes_analyzed, Graph.foundDeclarations, get?_classes_declarations]
    show ((((shadowedFiles.sources (SourcePath.ofText ".")).filter _).map Prod.fst).getLast?).or
      none = _
    rw [hsources]
    decide +kernel
  · rw [Disk.declarers, hsources]
    decide +kernel

/-- The imported class is not the one that the call and the creation are resolved to. -/
theorem shadowed_import_unresolved :
    ∃ t, (do openProject .plain "."; analyze : Action Unit) (Session.ofDisk shadowedFiles) =
        (.ok (), t) ∧
      t.project.graph.classes.get? "a.C" = some ⟨"", ["a", "C.java"]⟩ ∧
      "C" ∈ (t.project.graph.imports.getD ⟨"", ["F.java"]⟩ SortedSet.empty).toList ∧
      "m" ∉ t.project.graph.names ⟨"", ["F.java"]⟩ ⟨"", ["a", "C.java"]⟩ ∧
      "new C()" ∉ t.project.graph.names ⟨"", ["F.java"]⟩ ⟨"", ["a", "C.java"]⟩ := by
  have hspelled : ∀ text, ∀ name ∈ Java.declaredTypes text, True ∧ True := by simp
  rcases @openProject_analyze_plain (fun _ => True) hspelled "." (Session.ofDisk shadowedFiles) with
    ⟨_, t, hrun, -, -, -, hgraph⟩
  have hgraph' : t.project.graph =
      (Graph.ofRoot (SourcePath.ofText ".")).analyzed shadowedFiles := hgraph
  rcases uses_importingText with ⟨hclean, hcall, hnew⟩
  rcases declared_shadowedFiles with ⟨hfile, hclass, hdeclarers⟩
  rcases @analyzed_resolves _ _ _ _ _ "a" "C" hfile (by decide) hclass (by decide) with
    ⟨himports, hcalls, hcreations⟩
  rw [← hgraph'] at himports hcalls hcreations
  have htarget : t.project.graph.classes.get? "a.C" = some ⟨"", ["a", "C.java"]⟩ := by
    rw [hgraph']
    exact hclass
  rw [hclean] at hcalls hcreations
  have hlast : (shadowedFiles.declarers (SourcePath.ofText ".") "C").getLast? ≠
      some ⟨"", ["a", "C.java"]⟩ := by
    rw [hdeclarers]
    decide
  have himport : Java.importClause.captures1 importingText.toList = ["a.C"] := rfl
  refine ⟨t, hrun, htarget, himports (by rw [himport]; decide) (by decide), ?_, ?_⟩
  · intro hmem
    rcases (hcalls "m" (by decide) hcall).1 hmem with ⟨-, h⟩ | h | h
    · exact hlast h
    · have hcalled : Java.memberCalls importingText.toList = [("C", "m")] := rfl
      rcases h with ⟨receiver, hne, hmem, -⟩
      rw [hcalled] at hmem
      exact hne (by simpa using hmem)
    · have hcalled : Java.serviceCalls importingText.toList = [] := rfl
      rcases h with ⟨service, hmem, -⟩
      rw [hcalled] at hmem
      cases hmem
  · exact fun hmem => hlast ((hcreations hnew).1 hmem)

end JavaDeps
