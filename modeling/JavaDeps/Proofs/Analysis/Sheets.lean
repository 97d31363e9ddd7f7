import JavaDeps.Proofs.Analysis.Names

/-!
# What is kept of one file

Apart from the names that all files share, a finding changes what is kept of one file only. A round
over files therefore gives each of them what its own text gives, in whatever order they are visited.
-/

namespace JavaDeps

/-- What is kept of one file: the classes it declares, the names it imports, the labels of its
edges, the types of its names, its uses in conditions and chains, and its injected fields. -/
@[ext] structure Sheet where
  declared : Option NameSet
  imports : Option NameSet
  names : SourcePath → List String
  types : Option (Table String String)
  conditions : Option (Table SourcePath (List String))
  chains : Option (Table SourcePath (List String))
  injected : Option NameSet

def Project.sheet (p : Project) (file : SourcePath) : Sheet where
  declared := p.graph.declared.get? file
  imports := p.graph.imports.get? file
  names := fun target => p.graph.names file target
  types := p.facts.fieldTypes.get? file
  conditions := p.facts.conditionCalls.get? file
  chains := p.facts.chainedCalls.get? file
  injected := p.facts.injected.get? file

/-- Equal sheets are about equal imports, labels, types, conditions and chains. -/
theorem Project.kept_of_sheet {p q : Project} {file : SourcePath}
    (h : p.sheet file = q.sheet file) :
    p.graph.imports.get? file = q.graph.imports.get? file ∧
      (∀ target, p.graph.names file target = q.graph.names file target) ∧
      p.facts.fieldTypes.get? file = q.facts.fieldTypes.get? file ∧
      p.facts.conditionCalls.get? file = q.facts.conditionCalls.get? file ∧
      p.facts.chainedCalls.get? file = q.facts.chainedCalls.get? file := by
  simp only [Project.sheet, Sheet.mk.injEq] at h
  rcases h with ⟨-, himports, hnames, htypes, hconditions, hchains, -⟩
  exact ⟨himports, fun target => congrFun hnames target, htypes, hconditions, hchains⟩

def Finding.about? : Finding → Option SourcePath
  | .declares file _ _ => some file
  | .imports file _ => some file
  | .uses source _ _ => some source
  | .usesOnce source _ _ => some source
  | .types file _ _ => some file
  | .conditionUses source _ _ => some source
  | .chainUses source _ _ => some source
  | .injects file _ => some file
  | .listsTypes file => some file
  | .listsConditions file => some file
  | .listsChains file => some file
  | .listsInjected file => some file
  | .declaresInterface _ _ => none
  | .implements _ _ => none
  | .servesIn _ _ _ => none

theorem Finding.DetailOf.about {file : SourcePath} {f : Finding} (h : f.DetailOf file) :
    f.about? = some file := by
  cases f with
  | uses source target label => exact congrArg some h.1
  | usesOnce source target label => exact congrArg some h.1
  | declares _ _ _ => exact h.elim
  | declaresInterface _ _ => exact h.elim
  | «implements» _ _ => exact h.elim
  | servesIn _ _ _ => exact h.elim
  | _ => exact congrArg some h

/-! ## One finding -/

namespace Sheet

def label (v : Sheet) (target : SourcePath) (label : String) : Sheet :=
  { v with names := fun t => if target = t then v.names t ++ [label] else v.names t }

def record (v : Sheet) : Finding → Sheet
  | .declares _ name _ =>
    { v with declared := some ((v.declared.getD SortedSet.empty).insert name) }
  | .imports _ name => { v with imports := some ((v.imports.getD SortedSet.empty).insert name) }
  | .uses _ target label => v.label target label
  | .usesOnce _ target label => if label ∈ v.names target then v else v.label target label
  | .types _ name type => { v with types := some ((v.types.getD Table.empty).set name type) }
  | .conditionUses _ target label =>
    { v with
      conditions := some ((v.conditions.getD Table.empty).alter target [] (· ++ [label])) }
  | .chainUses _ target label =>
    { v with chains := some ((v.chains.getD Table.empty).alter target [] (· ++ [label])) }
  | .injects _ type => { v with injected := some ((v.injected.getD SortedSet.empty).insert type) }
  | .listsTypes _ => { v with types := some (v.types.getD Table.empty) }
  | .listsConditions _ => { v with conditions := some (v.conditions.getD Table.empty) }
  | .listsChains _ => { v with chains := some (v.chains.getD Table.empty) }
  | .listsInjected _ => { v with injected := some (v.injected.getD SortedSet.empty) }
  | _ => v

end Sheet

namespace Project

/-- A use is written on the sheet of its source. -/
theorem sheet_record_uses (p : Project) (source target file : SourcePath) (label : String) :
    (p.record (.uses source target label)).sheet file =
      if source = file then (p.sheet file).label target label else p.sheet file := by
  have hnames : ∀ t, (p.graph.record (.uses source target label)).names file t =
      if source = file ∧ target = t then p.graph.names file t ++ [label]
      else p.graph.names file t := by
    intro t
    rw [Graph.record, Graph.names_setLabels]
    split
    · rename_i h
      rw [h.1, h.2]
    · rfl
  by_cases h : source = file
  · rw [if_pos h]
    refine Sheet.ext rfl rfl (funext fun t => ?_) rfl rfl rfl rfl
    exact (hnames t).trans (by simp [h, Sheet.label, sheet])
  · rw [if_neg h]
    refine Sheet.ext rfl rfl (funext fun t => ?_) rfl rfl rfl rfl
    exact (hnames t).trans (by simp [h, sheet])

/-- A finding changes the sheet that it is about, and by this sheet only. -/
theorem sheet_record (p : Project) (f : Finding) (file : SourcePath) :
    (p.record f).sheet file =
      if f.about? = some file then (p.sheet file).record f else p.sheet file := by
  cases f with
  | uses source target label =>
    simpa only [Finding.about?, Option.some.injEq, Sheet.record] using
      sheet_record_uses p source target file label
  | usesOnce source target label =>
    simp only [Finding.about?, Option.some.injEq, Sheet.record]
    -- A label that is there changes nothing; any other one is entered like every label.
    by_cases hl : label ∈ p.graph.names source target
    · have hsame : p.record (.usesOnce source target label) = p := by
        simp [record, Graph.record, Facts.record, hl]
      rw [hsame]
      by_cases h : source = file
      · subst h
        have hl' : label ∈ (p.sheet source).names target := hl
        rw [if_pos rfl, if_pos hl']
      · rw [if_neg h]
    · have huses : p.record (.usesOnce source target label) =
          p.record (.uses source target label) := by
        simp [record, Graph.record, Facts.record, hl]
      rw [huses, sheet_record_uses]
      by_cases h : source = file
      · subst h
        have hl' : label ∉ (p.sheet source).names target := hl
        rw [if_pos rfl, if_pos rfl, if_neg hl']
      · rw [if_neg h, if_neg h]
  | declaresInterface file' name => rfl
  | «implements» interface className => rfl
  | servesIn service implementation file' => rfl
  | declares file' _ _ | imports file' _ =>
    by_cases h : file' = file <;>
      simp [sheet, Sheet.record, record, Graph.record, Facts.record, Finding.about?, Graph.names,
        Graph.labels, Table.get?_alter, Table.getD, h]
  | types file' _ _ | conditionUses file' _ _ | chainUses file' _ _ | injects file' _
  | listsTypes file' | listsConditions file' | listsChains file' | listsInjected file' =>
    by_cases h : file' = file <;>
      simp [sheet, Sheet.record, record, Graph.record, Facts.record, Finding.about?, addLabel,
        Table.get?_alter, Table.get?_ensure, Table.getD, h]

/-! ## Rounds -/

variable {p q : Project} {file : SourcePath}

/-- What findings write on a sheet depends on the sheet alone. -/
theorem sheet_recordAll_congr (h : p.sheet file = q.sheet file) (findings : List Finding) :
    (p.recordAll findings).sheet file = (q.recordAll findings).sheet file := by
  induction findings generalizing p q with
  | nil => exact h
  | cons f rest ih =>
    refine ih ?_
    rw [sheet_record, sheet_record, h]

/-- Findings about other files leave a sheet alone. -/
theorem sheet_recordAll_other {findings : List Finding}
    (h : ∀ f ∈ findings, f.about? ≠ some file) (p : Project) :
    (p.recordAll findings).sheet file = p.sheet file := by
  refine recordAll_keeps (fun p => p.sheet file) p (fun f hf q => ?_)
  rw [sheet_record, if_neg (h f hf)]

end Project

/-- The findings of a round at a file change no other sheet. They depend on the sheet of the file,
and on something else that the round keeps as it is. -/
structure LocalRound {ρ : Type} (reads : Project → ρ)
    (findings : Project → SourcePath → List Char → List Finding) : Prop where
  keeps : ∀ p file text, reads (p.recordAll (findings p file text)) = reads p
  only : ∀ p file text, ∀ f ∈ findings p file text, ∀ other, f.about? = some other → other = file
  congr : ∀ p q file text, reads p = reads q → p.sheet file = q.sheet file →
    findings p file text = findings q file text

namespace LocalRound

variable {ρ : Type} {reads : Project → ρ}
  {findings : Project → SourcePath → List Char → List Finding} {p q : Project}
  {sources sources' : List (SourcePath × List Char)} {file : SourcePath}

/-- A local round at another file leaves a sheet alone. -/
theorem sheet_other (h : LocalRound reads findings) (p : Project) {other : SourcePath}
    (hne : file ≠ other) (text : List Char) :
    (p.recordAll (findings p other text)).sheet file = p.sheet file := by
  refine Project.sheet_recordAll_other (fun f hf habout => ?_) p
  exact hne (h.only p other text f hf file habout)

/-- A file that the round does not visit keeps its sheet. -/
theorem sheet_round_of_not_mem (h : LocalRound reads findings)
    (hfile : file ∉ sources.map Prod.fst) (p : Project) :
    (p.round findings sources).sheet file = p.sheet file := by
  refine Project.round_induction (I := fun q => q.sheet file = p.sheet file)
    (fun e he q hq => ?_) rfl
  have hne : file ≠ e.1 := fun heq => hfile (heq ▸ List.mem_map.2 ⟨e, he, rfl⟩)
  exact (h.sheet_other q hne e.2).trans hq

/-- A file that the round visits gets what its text gives with the project before the round. -/
theorem sheet_round_of_mem (h : LocalRound reads findings) (hnodup : (sources.map Prod.fst).Nodup)
    {text : List Char} (hmem : (file, text) ∈ sources) (p : Project) :
    (p.round findings sources).sheet file = (p.recordAll (findings p file text)).sheet file := by
  induction sources generalizing p with
  | nil => cases hmem
  | cons e rest ih =>
    rw [List.map_cons, List.nodup_cons] at hnodup
    rw [Project.round_cons]
    rcases List.mem_cons.1 hmem with heq | hrest
    · -- The file is visited now, and not again later.
      rw [← heq] at hnodup ⊢
      exact h.sheet_round_of_not_mem hnodup.1 _
    · -- Another file is visited now, which changes nothing that the findings here depend on.
      have hne : file ≠ e.1 := by
        intro heq
        exact hnodup.1 (heq ▸ List.mem_map.2 ⟨(file, text), hrest, rfl⟩)
      have hsheet := h.sheet_other p hne e.2
      rw [ih hnodup.2 hrest, h.congr _ p file text (h.keeps p e.1 e.2) hsheet]
      exact Project.sheet_recordAll_congr hsheet _

/-- The order of the files does not matter to any sheet. -/
theorem sheet_round_perm (h : LocalRound reads findings) (hperm : sources'.Perm sources)
    (hnodup : (sources.map Prod.fst).Nodup) (hreads : reads q = reads p)
    (hsheets : ∀ file, q.sheet file = p.sheet file) (file : SourcePath) :
    (q.round findings sources').sheet file = (p.round findings sources).sheet file := by
  have hfiles : (sources'.map Prod.fst).Perm (sources.map Prod.fst) := hperm.map _
  by_cases hfile : file ∈ sources.map Prod.fst
  · rcases List.mem_map.1 hfile with ⟨⟨_, text⟩, hmem, rfl⟩
    rw [h.sheet_round_of_mem (hfiles.nodup_iff.2 hnodup) (hperm.mem_iff.2 hmem),
      h.sheet_round_of_mem hnodup hmem, h.congr q p _ text hreads (hsheets _)]
    exact Project.sheet_recordAll_congr (hsheets _) _
  · have hfile' : file ∉ sources'.map Prod.fst := fun hmem => hfile (hfiles.mem_iff.1 hmem)
    rw [h.sheet_round_of_not_mem hfile', h.sheet_round_of_not_mem hfile, hsheets]

end LocalRound

/-! ## The rounds of the deep analysis -/

theorem localRound_declarations : LocalRound (fun _ => ()) (fun _ => declarationFindings) where
  keeps _ _ _ := rfl
  only _ _ _ f hf other habout := by
    rcases List.mem_map.1 hf with ⟨name, -, rfl⟩
    exact (Option.some.inj habout).symm
  congr _ _ _ _ _ _ := rfl

theorem eq_of_detailOf_about {f : Finding} {file other : SourcePath} (h : f.DetailOf file)
    (habout : f.about? = some other) : other = file :=
  Option.some.inj (habout.symm.trans h.about)

/-- Which other file a class is in depends on what its name stands for. -/
theorem Graph.otherFile?_congr {g g' : Graph}
    (h : g.classes.get? = g'.classes.get?) : g.otherFile? = g'.otherFile? := by
  funext file name
  simp only [Graph.otherFile?, h]

/-- Details leave the tables kept by name alone. -/
theorem Project.index_recordAll_details {findings : List Finding} {file : SourcePath}
    (h : ∀ f ∈ findings, f.DetailOf file) (p : Project) :
    (p.recordAll findings).index = p.index :=
  Project.recordAll_keeps Project.index p (fun f hf => Project.index_record_detail (h f hf))

/-- Calls read what the names of classes stand for. -/
theorem localRound_calls :
    LocalRound (fun p => p.graph.classes.get?) (fun p => callFindings p.graph) where
  keeps p file text := by
    have hdetails : ∀ f ∈ callFindings p.graph file text, f.DetailOf file :=
      fun f hf => callFindings_detailOf hf
    rw [(Prod.mk.inj (Project.index_recordAll_details hdetails p)).1]
  only _ _ _ f hf other habout := eq_of_detailOf_about (callFindings_detailOf hf) habout
  congr p q file text hreads _ := by
    simp only [callFindings, usesClass, Graph.otherFile?_congr hreads]

theorem localRound_interfaces : LocalRound (fun _ => ()) (fun _ => interfaceFindings) where
  keeps _ _ _ := rfl
  only _ _ _ f hf other habout := by
    rcases List.mem_map.1 hf with ⟨name, -, rfl⟩
    cases habout
  congr _ _ _ _ _ _ := rfl

/-- The clauses of classes read what the names of interfaces stand for. -/
theorem localRound_clauses :
    LocalRound (fun p => p.facts.interfaces.get?) (fun p => clauseFindings p.facts) where
  keeps p file text :=
    Project.recordAll_keeps (fun p => p.facts.interfaces.get?) p
      (fun f hf q => by rw [Project.interfaces_record_clause hf q])
  only _ _ _ f hf other habout := by
    rcases mem_clauseFindings hf with ⟨_, _, rfl⟩ | hdetail
    · cases habout
    · exact eq_of_detailOf_about hdetail habout
  congr p q file text hreads _ := clauseFindings_congr (fun name => congrFun hreads name) file text

theorem localRound_services (files : List SourcePath) :
    LocalRound (fun _ => ()) (fun _ => serviceFindings files) where
  keeps _ _ _ := rfl
  only _ _ _ f hf other habout := by
    rcases serviceFindings_detailOf hf with ⟨_, _, _, rfl⟩ | hdetail
    · cases habout
    · exact eq_of_detailOf_about hdetail habout
  congr _ _ _ _ _ _ := rfl

/-! ## The closer look -/

/-- What the closer look at a file reads beside its sheet: what the names of classes stand for, and
which classes implement an interface. -/
def Project.resolves (p : Project) :
    (String → Option SourcePath) × (String → Option NameSet) :=
  (p.graph.classes.get?, p.facts.implementations.get?)

/-- Names are resolved by the classes and the implementations. -/
theorem Project.resolves_eq {p q : Project}
    (hclasses : p.graph.classes.get? = q.graph.classes.get?)
    (himplementations : p.facts.implementations.get? = q.facts.implementations.get?) :
    p.resolves = q.resolves :=
  Prod.ext hclasses himplementations

theorem Project.resolves_of_index {p q : Project} (h : p.index = q.index) :
    p.resolves = q.resolves := by
  simp only [Project.index, Prod.mk.injEq] at h
  simp only [Project.resolves, h.1, h.2.2]

section

variable {p q : Project} {file : SourcePath}

/-- The type of a name depends on the sheet of its file. -/
theorem typeOf?_congr (h : p.sheet file = q.sheet file) (text? : Option (List Char)) :
    typeOf? p.facts text? file = typeOf? q.facts text? file := by
  have htypes := (Project.kept_of_sheet h).2.2.1
  funext name
  simp only [typeOf?, Facts.declaredType?, htypes]

variable (hreads : p.resolves = q.resolves) (text : List Char)

include hreads

theorem otherFile?_of_resolves : p.graph.otherFile? = q.graph.otherFile? :=
  Graph.otherFile?_congr (Prod.mk.inj hreads).1

/-- What is found about fields depends on the sheet and on how names are resolved. -/
theorem fieldRound_congr : fieldRound p file text = fieldRound q file text := by
  simp only [fieldRound, fieldFindings, usesClassOnce, otherFile?_of_resolves hreads]

theorem injectionRound_congr : injectionRound p file text = injectionRound q file text := by
  have himplementations : p.facts.implementations.get? = q.facts.implementations.get? :=
    (Prod.mk.inj hreads).2
  simp only [injectionRound, injectionFindings, usesClassOnce, otherFile?_of_resolves hreads,
    Table.getD, himplementations]

variable (hsheet : p.sheet file = q.sheet file)

include hsheet

theorem conditionRound_congr : conditionRound p file text = conditionRound q file text := by
  simp only [conditionRound, conditionFindings, conditionUse, otherFile?_of_resolves hreads,
    typeOf?_congr hsheet]

theorem chainRound_congr : chainRound p file text = chainRound q file text := by
  simp only [chainRound, chainFindings, chainUse, otherFile?_of_resolves hreads,
    typeOf?_congr hsheet]

/-- Each part of the closer look finds the same, as the parts before it leave the names alone and
the sheets equal. -/
theorem detailFindings_congr : detailFindings p file text = detailFindings q file text := by
  have hkeeps : ∀ {findings : List Finding} (r : Project), (∀ f ∈ findings, f.DetailOf file) →
      (r.recordAll findings).resolves = r.resolves :=
    fun r h => Project.resolves_of_index (Project.index_recordAll_details h r)
  -- The fields are entered first; they decide the types that conditions and chains look up.
  have hfields := @fieldRound_congr p q file hreads text
  let typed := p.recordAll (fieldRound p file text)
  let typed' := q.recordAll (fieldRound q file text)
  have htyped : typed.resolves = typed'.resolves := by
    rw [hkeeps p (fun f hf => (fieldRound_foundIn hf).detailOf),
      hkeeps q (fun f hf => (fieldRound_foundIn hf).detailOf), hreads]
  have htypedSheet : typed.sheet file = typed'.sheet file := by
    simp only [typed, typed', hfields]
    exact Project.sheet_recordAll_congr hsheet _
  have hconditions := conditionRound_congr htyped text htypedSheet
  let tested := typed.recordAll (conditionRound typed file text)
  let tested' := typed'.recordAll (conditionRound typed' file text)
  have htested : tested.resolves = tested'.resolves := by
    rw [hkeeps typed (fun f hf => (conditionRound_foundIn hf).detailOf),
      hkeeps typed' (fun f hf => (conditionRound_foundIn hf).detailOf), htyped]
  have htestedSheet : tested.sheet file = tested'.sheet file := by
    simp only [tested, tested', hconditions]
    exact Project.sheet_recordAll_congr htypedSheet _
  have hchains := chainRound_congr htested text htestedSheet
  let chained := tested.recordAll (chainRound tested file text)
  let chained' := tested'.recordAll (chainRound tested' file text)
  have hchained : chained.resolves = chained'.resolves := by
    rw [hkeeps tested (fun f hf => (chainRound_foundIn hf).detailOf),
      hkeeps tested' (fun f hf => (chainRound_foundIn hf).detailOf), htested]
  have hinjections := @injectionRound_congr chained chained' file hchained text
  show fieldRound p file text ++ (conditionRound typed file text
    ++ (chainRound tested file text ++ injectionRound chained file text)) =
      fieldRound q file text ++ (conditionRound typed' file text
        ++ (chainRound tested' file text ++ injectionRound chained' file text))
  rw [hfields, hconditions, hchains, hinjections]

end

/-- The closer look is a local round. -/
theorem localRound_details : LocalRound Project.resolves detailFindings where
  keeps p _ _ := Project.resolves_of_index
    (Project.index_recordAll_details (fun _ hf => detailFindings_detailOf hf) p)
  only _ _ _ _ hf _ habout := eq_of_detailOf_about (detailFindings_detailOf hf) habout
  congr _ _ _ text hreads hsheet := detailFindings_congr hreads text hsheet

end JavaDeps
