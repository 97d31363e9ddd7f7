import JavaDeps.Proofs.Java.Declarations
import JavaDeps.Proofs.Selection.Projection
import JavaDeps.Proofs.Web.Listing
import JavaDeps.Selection.Pages

/-!
# Selections with page functions

With page functions in a project, the ids of classes and calls are also taken for names of
functions: such a name is what follows the last dot of an id. Before the graph is restricted, the
named functions are looked at, and the calls are reduced to the labels that mention one of the
names.
-/

namespace JavaDeps

/-! ## Names of functions -/

def functionNames (ids : List String) : List String := ids.map namedFunction

/-- The names of functions are gathered in addition to those before. -/
theorem mem_foldl_addName {ids names : List String} {name : String} :
    name ∈ ids.foldl (fun names id => addName names (namedFunction id)) names ↔
      name ∈ names ∨ name ∈ functionNames ids := by
  induction ids generalizing names with
  | nil => simp [functionNames]
  | cons id rest ih =>
    have hadd : name ∈ addName names (namedFunction id) ↔
        name ∈ names ∨ name = namedFunction id := by
      unfold addName
      split
      · rename_i hmem
        have hmem' : namedFunction id ∈ names := by simpa using hmem
        exact ⟨Or.inl, fun h => h.elim (fun h => h) (fun h => h ▸ hmem')⟩
      · simp
    rw [List.foldl_cons, ih, hadd]
    simp only [functionNames, List.map_cons, List.mem_cons, or_assoc]

/-- Which labels stay depends only on which names there are. -/
theorem keepsLabel_congr {names names' : List String} (h : ∀ name, name ∈ names ↔ name ∈ names')
    (label : String) : keepsLabel names label = keepsLabel names' label := by
  have hany : names.any (mentions label) = names'.any (mentions label) := by
    rw [Bool.eq_iff_iff, List.any_eq_true, List.any_eq_true]
    exact exists_congr (fun name => and_congr_left (fun _ => h name))
  rw [keepsLabel, keepsLabel, hany]

/-- Only the set of the names matters for narrowing. -/
theorem Graph.narrowed_congr (g : Graph) {names names' : List String}
    (h : ∀ name, name ∈ names ↔ name ∈ names') : g.narrowed names = g.narrowed names' := by
  have hkeeps : keepsLabel names = keepsLabel names' := funext (keepsLabel_congr h)
  have hmentioned : mentioned names = mentioned names' := by
    funext e
    rw [mentioned, mentioned, hkeeps]
  rw [narrowed, narrowed, hmentioned]

/-! ## Ids that are offered -/

/-- The path of a listed file ends like the name of a Java file. -/
theorem Disk.Lists.pathText {d : Disk} {root file : SourcePath} (h : d.Lists root file) {g : Graph}
    (hroot : g.root = root) : ∃ front, (g.pathText file).toList = front ++ ".java".toList := by
  rcases h.child with ⟨parts, hne, hname, rfl⟩
  have htext : g.pathText (root.child parts) = Text.join "/" parts := by
    have hempty : parts.isEmpty = false := by simpa using hne
    simp [Graph.pathText, hroot, SourcePath.relativeTo?_child, SourcePath.toText, hempty]
  rcases Text.join_toList "/" hne with ⟨front, hfront⟩
  rw [isJavaName, Text.ends, List.isSuffixOf_iff_suffix] at hname
  rcases hname with ⟨stem, hstem⟩
  exact ⟨front ++ stem, by rw [htext, hfront, ← hstem, List.append_assoc]⟩

/-- An id of a call is taken for a function whose name is the ending of Java files. -/
theorem namedFunction_call {d : Disk} {root target : SourcePath} (h : d.Lists root target)
    {g : Graph} (hroot : g.root = root) (source : SourcePath) (label : String) :
    namedFunction (Choice.callMark ++ g.callText source target label) = "java" := by
  rcases h.pathText hroot with ⟨front, hfront⟩
  have hid : Choice.callMark ++ g.callText source target label =
      String.ofList
        ((Choice.callMark ++ (label ++ "_" ++ g.pathText source ++ "_")).toList ++ front ++
        '.' :: "java".toList) := by
    apply String.toList_injective
    simp only [Graph.callText, String.toList_append, String.toList_ofList, hfront,
      List.append_assoc]
    rfl
  rw [namedFunction, hid, Text.lastPart_ofList_append (by decide), String.ofList_toList]

/-- The spelling of qualified and simple class names. -/
def PackageSpelled (name : String) : Prop := ∀ c ∈ name.toList, Java.isPackageChar c = true

/-- Types that are declared are spelled like packages. -/
theorem packageSpelled_declaredTypes {text : List Char} {name : String}
    (h : name ∈ Java.declaredTypes text) : PackageSpelled name := by
  intro c hc
  have hname :=
    (Java.isName_of_mem_declaredTypes h).all (fun _ => Java.isNameChar_of_isCapital) c hc
  simp [Java.isPackageChar, hname]

/-- The qualified names of declared types are spelled like packages. -/
theorem packageSpelled_qualifiedName {text : List Char} {name : String}
    (h : name ∈ Java.declaredTypes text) : PackageSpelled (qualifiedName text name) := by
  have hname := packageSpelled_declaredTypes h
  have hdot : ∀ c ∈ ".".toList, Java.isPackageChar c = true := List.all_eq_true.1 (by decide)
  intro c hc
  simp only [qualifiedName] at hc
  cases hpackage : Java.packageName? text with
  | none =>
    rw [hpackage] at hc
    exact hname c hc
  | some package =>
    rw [hpackage, Option.getD_some] at hc
    split at hc
    · exact hname c hc
    · simp only [String.toList_append, List.mem_append] at hc
      rcases hc with (hc | hc) | hc
      · exact Java.packageName?_spelled hpackage c hc
      · exact hdot c hc
      · exact hname c hc

/-- The id of a class with such a name names an ordinary function. -/
theorem namedFunction_class {name : String} (h : PackageSpelled name) :
    Java.IsOrdinaryName (namedFunction (Choice.classMark ++ name)) := by
  intro c hc
  rcases Text.mem_of_mem_lastPart hc with ⟨hmem, hdot⟩
  rw [String.toList_append] at hmem
  refine Java.isOrdinary_of_isNameChar ?_
  rcases List.mem_append.1 hmem with hmem | hmem
  · have hmark : ∀ c ∈ Choice.classMark.toList, Java.isNameChar c = true :=
      List.all_eq_true.1 (by decide)
    exact hmark c hmem
  · have hspelled := h c hmem
    simpa [Java.isPackageChar, hdot] using hspelled

/-- The text of a call has at least two underscores. -/
theorem Graph.count_callText (g : Graph) (source target : SourcePath) (label : String) :
    2 ≤ (g.callText source target label).toList.count '_' := by
  have hmark : "_".toList = ['_'] := rfl
  simp only [Graph.callText, String.toList_append, List.count_append, hmark,
    List.count_singleton_self]
  omega

/-! ## The selection -/

/-- A selection of ids that are offered succeeds, and leads to a selection of the reduced calls. -/
theorem filterPaged_leads {inside : SourcePath → Prop} {s : Session} {ids : List String}
    (hne : ids ≠ []) (hids : NoPages ids)
    (hnames : ∀ name ∈ functionNames ids, Java.IsOrdinaryName name)
    (hcalls : CallsIn inside s.project.graph.calls)
    (hbelow : ∀ file, inside file → s.project.graph.Below file) :
    Leads (filterPaged (Value.ofNames ids)) s (fun _ t =>
      t.project.graph = (s.project.graph.narrowed (functionNames ids)).filtered ids) := by
  have hpages : ids.filter (fun id => Text.starts id Choice.pageMark) = [] := by
    exact List.filter_eq_nil_iff.2 (fun id hid => by simp [hids id hid])
  have hothers : ids.filter (fun id => !Text.starts id Choice.pageMark) = ids := by
    exact List.filter_eq_self.2 (fun id hid => by simp [hids id hid])
  unfold filterPaged
  rw [idTexts_ofNames]
  refine Leads.bind (Leads.of_run (orFail_ok_run ids s) ?_)
  simp only [hpages, hothers]
  have hmem : ∀ name, name ∈ ids.foldl (fun names id => addName names (namedFunction id)) [] ↔
      name ∈ functionNames ids := by
    intro name
    rw [mem_foldl_addName]
    simp
  rw [← Graph.narrowed_congr _ hmem]
  -- From here on only the members of the list matter, not how it came about.
  generalize hlist : ids.foldl (fun names id => addName names (namedFunction id)) [] =
    names at hmem ⊢
  have hsome : names ≠ [] := by
    rcases List.exists_mem_of_ne_nil ids hne with ⟨id, hid⟩
    exact List.ne_nil_of_mem ((hmem _).2 (List.mem_map_of_mem hid))
  have hsome' : (!names.isEmpty) = true := by simpa using hsome
  rw [if_neg (by decide), if_pos hsome']
  refine Leads.bind (Leads.of_run (say_run _ s) ?_)
  have hread : ∀ name ∈ names, Java.IsOrdinaryName name :=
    fun name hname => hnames name ((hmem name).1 hname)
  refine Leads.bind ((selectFunctions_leads hread _).weaken (fun _ t ht => ?_))
  have hgraph : t.project.graph = s.project.graph := ht.graph
  refine Leads.bind ((filterCalls_arrives (by rw [hgraph]; exact hcalls.textCalls) names).weaken
    (fun _ u hu => ?_))
  have hgraph' : u.project.graph = s.project.graph.narrowed names := by
    rw [hu.2, Graph.reduced, if_neg hsome, hgraph]
  have hcalls' : CallsIn inside u.project.graph.calls := by
    rw [hgraph']
    exact Graph.narrowed_callsIn hcalls names
  have hbelow' : ∀ file, inside file → u.project.graph.Below file := by
    rw [hgraph']
    exact hbelow
  refine (filterGraph_leads hids hcalls' hbelow').weaken (fun _ v hv => ?_)
  rw [hv.2, hgraph']

/-- Every id that is offered names an ordinary function. -/
theorem Graph.Offers.namedFunction {g : Graph} {d : Disk} {root : SourcePath} {id : String}
    (hid : g.Offers id) (hroot : g.root = root) (h : g.Regular (d.Lists root) PackageSpelled) :
    Java.IsOrdinaryName (JavaDeps.namedFunction id) ∧
      (Text.starts id Choice.callMark = true → JavaDeps.namedFunction id = "java") := by
  cases hid with
  | @ofClass e he =>
    refine ⟨namedFunction_class (h.class_spelled e he), fun hmark => ?_⟩
    rw [Text.starts, String.toList_append] at hmark
    cases hmark
  | @ofCall e label he hlabel =>
    have hjava := namedFunction_call (h.calls_in.of_mem_edgesOf he).2.1 hroot e.source label
    refine ⟨?_, fun _ => hjava⟩
    rw [hjava]
    exact List.all_eq_true.1 (by decide)

/-- The runs of a selection of offered ids, as it is made with page functions in the project and as
it would be made without them. The list offers the first call that the plain analysis enters. -/
theorem offered_selections_lead (root : String) (s : Session) :
    ∃ t offered u,
      (do openProject .paged root; analyze : Action Unit) s = (.ok (), t) ∧
      functionList .withPages t = (.ok offered, u) ∧
      t.project.graph.root = SourcePath.ofText root ∧
      CallsIn (s.disk.Lists (SourcePath.ofText root)) t.project.graph.calls ∧
      (∀ source target label,
        ((Graph.ofRoot (SourcePath.ofText root)).analyzed s.disk).firstCall? =
          some (source, target, label) →
        label ∈ t.project.graph.names source target ∧ ∃ v ∈ offered, v.field? "id" =
          some (.str (Choice.callMark ++ t.project.graph.callText source target label))) ∧
      ∀ ids : List String, ids ≠ [] → NoPages ids →
        (∀ id ∈ ids, ∃ v ∈ offered, v.field? "id" = some (.str id)) →
        ∃ paged plain,
          filterProject (Value.ofNames ids) t = (.ok (), paged) ∧
          filterGraph (Value.ofNames ids) t = (.ok (), plain) ∧
          paged.project.graph = (t.project.graph.narrowed (functionNames ids)).filtered ids ∧
          plain.project.graph = t.project.graph.filtered ids ∧
          ∀ id ∈ ids, Text.starts id Choice.callMark = true → namedFunction id = "java" := by
  have hspelled : ∀ text, ∀ name ∈ Java.declaredTypes text,
      PackageSpelled name ∧ PackageSpelled (qualifiedName text name) :=
    fun text name hname => ⟨packageSpelled_declaredTypes hname, packageSpelled_qualifiedName hname⟩
  rcases openProject_analyze_deep hspelled (by decide : Depth.paged ≠ .plain) root s with
    ⟨_, t, hrun, hdisk, hdepth, hregular, hextends⟩
  have hroot : t.project.graph.root = SourcePath.ofText root :=
    hextends.root_eq.trans (Graph.root_analyzed _ _)
  have hcalls := hregular.graph.calls_in
  have hbelow : ∀ file, s.disk.Lists (SourcePath.ofText root) file → t.project.graph.Below file :=
    fun file hfile => hfile.below hroot
  rcases functionList_leads hregular.graph hbelow .withPages with
    ⟨offered, u, hlist, -, hoffers, hfirst⟩
  refine ⟨t, offered, u, hrun, hlist, hroot, hcalls, fun source target label hcall => ?_,
    fun ids hne hids hoffered => ?_⟩
  · have hcall' := hextends.first _ hcall
    exact ⟨Graph.mem_names_of_firstCall? hcall', hfirst source target label hcall'⟩
  · -- What is offered besides page functions are classes and calls. No name in them is a pattern.
    have hnamed : ∀ id ∈ ids, Java.IsOrdinaryName (namedFunction id) ∧
        (Text.starts id Choice.callMark = true → namedFunction id = "java") := by
      intro id hid
      rcases hoffered id hid with ⟨v, hv, hfield⟩
      rcases hoffers v hv id hfield with hpage | hoffer
      · rw [hids id hid] at hpage
        cases hpage
      · exact hoffer.namedFunction hroot hregular.graph
    have hnames : ∀ name ∈ functionNames ids, Java.IsOrdinaryName name := by
      intro name hname
      rcases List.mem_map.1 hname with ⟨id, hid, rfl⟩
      exact (hnamed id hid).1
    rcases filterPaged_leads hne hids hnames hcalls hbelow with ⟨_, paged, hpaged, hgraph⟩
    rcases filterGraph_leads hids hcalls hbelow with ⟨_, plain, hplain, -, hproject⟩
    have hfilter : filterProject (Value.ofNames ids) t = (.ok (), paged) := by
      rw [← hpaged]
      simp only [filterProject, bind_run, theProject_run, hdepth]
    exact ⟨paged, plain, hfilter, hplain, hgraph, by rw [hproject], fun id hid => (hnamed id hid).2⟩

/-- With page functions in the project, a selection of offered classes and calls shows what it would
show without them if and only if every label that it would show mentions one of the names that the
ids are taken for. A chosen call would always be shown, but the id of a call is only taken for the
ending of Java files. -/
theorem paged_selection_iff (root : String) (s : Session) :
    ∃ t offered u,
      (do openProject .paged root; analyze : Action Unit) s = (.ok (), t) ∧
      functionList .withPages t = (.ok offered, u) ∧
      ∀ ids : List String, ids ≠ [] → NoPages ids →
        (∀ id ∈ ids, ∃ v ∈ offered, v.field? "id" = some (.str id)) →
        ∃ paged plain,
          filterProject (Value.ofNames ids) t = (.ok (), paged) ∧
          filterGraph (Value.ofNames ids) t = (.ok (), plain) ∧
          (paged.project.graph.SameTables plain.project.graph ↔
            ∀ e ∈ edgesOf plain.project.graph.calls, ∀ label ∈ e.names,
              keepsLabel (functionNames ids) label = true) ∧
          (∀ source target, ∀ label ∈ plain.project.graph.names source target,
            (label ∈ paged.project.graph.names source target ↔
              keepsLabel (functionNames ids) label = true)) ∧
          (∀ source target, ∀ label ∈ t.project.graph.names source target,
            Choice.callMark ++ t.project.graph.callText source target label ∈ ids →
            label ∈ plain.project.graph.names source target) ∧
          ∀ id ∈ ids, Text.starts id Choice.callMark = true → namedFunction id = "java" := by
  rcases offered_selections_lead root s with ⟨t, offered, u, hrun, hlist, -, hcalls, -, hselect⟩
  refine ⟨t, offered, u, hrun, hlist, fun ids hne hids hoffered => ?_⟩
  rcases hselect ids hne hids hoffered with ⟨paged, plain, hpaged, hplain, hgraph, hgraph', hnamed⟩
  refine ⟨paged, plain, hpaged, hplain, ?_, ?_, ?_, hnamed⟩
  · rw [hgraph, hgraph']
    exact Graph.filtered_narrowed_iff hcalls (functionNames ids) hne
  · intro source target label hlabel
    rw [hgraph'] at hlabel
    rw [hgraph]
    exact Graph.mem_names_filtered_narrowed hcalls (functionNames ids) hne hlabel
  · intro source target label hlabel hid
    rw [hgraph']
    exact Graph.mem_names_filtered_of_chosen hcalls hne hlabel
      (Choice.contains_calls_ofIds (Graph.count_callText _ _ _ _) hid)

def callingFiles : Disk :=
  ((default : Disk).put (SourcePath.ofText "A.java") (.text "class A \x7b int x = B.m(); \x7d")).put
    (SourcePath.ofText "B.java") (.text "class B \x7b \x7d")

theorem sources_callingFiles : callingFiles.sources (SourcePath.ofText ".") =
    [(⟨"", ["A.java"]⟩, "class A \x7b int x = B.m(); \x7d".toList),
      (⟨"", ["B.java"]⟩, "class B \x7b \x7d".toList)] := by decide +kernel

theorem firstCall?_callingFiles :
    ((Graph.ofRoot (SourcePath.ofText ".")).analyzed callingFiles).firstCall? =
      some (⟨"", ["A.java"]⟩, ⟨"", ["B.java"]⟩, "m") := by
  have hsources : ∀ g : Graph, g.root = SourcePath.ofText "." → callingFiles.sources g.root =
      [(⟨"", ["A.java"]⟩, "class A \x7b int x = B.m(); \x7d".toList),
        (⟨"", ["B.java"]⟩, "class B \x7b \x7d".toList)] := fun g hg => by
    rw [hg, sources_callingFiles]
  rw [Graph.analyzed, Graph.foundDeclarations, Graph.foundCalls, hsources _ rfl,
    hsources _ (Graph.root_recordAll _ _)]
  decide +kernel

/-- The call of `m` is offered and chosen, but with page functions in the project it is not shown.
-/
theorem chosen_call_not_shown :
    ∃ t offered u paged plain,
      (do openProject .paged "."; analyze : Action Unit) (Session.ofDisk callingFiles) =
        (.ok (), t) ∧
      functionList .withPages t = (.ok offered, u) ∧
      (∃ v ∈ offered, v.field? "id" = some (.str "method_m_A.java_B.java")) ∧
      filterProject (Value.ofNames ["method_m_A.java_B.java"]) t = (.ok (), paged) ∧
      filterGraph (Value.ofNames ["method_m_A.java_B.java"]) t = (.ok (), plain) ∧
      "m" ∈ plain.project.graph.names ⟨"", ["A.java"]⟩ ⟨"", ["B.java"]⟩ ∧
      "m" ∉ paged.project.graph.names ⟨"", ["A.java"]⟩ ⟨"", ["B.java"]⟩ := by
  rcases offered_selections_lead "." (Session.ofDisk callingFiles) with
    ⟨t, offered, u, hrun, hlist, hroot, hcalls, hfirst, hselect⟩
  rcases hfirst _ _ _ firstCall?_callingFiles with ⟨hlabel, hoffer⟩
  have hid : Choice.callMark ++ t.project.graph.callText ⟨"", ["A.java"]⟩ ⟨"", ["B.java"]⟩ "m" =
      "method_m_A.java_B.java" := by
    rw [Graph.callText, Graph.pathText, Graph.pathText, hroot]
    rfl
  have hchosen : (Choice.ofIds ["method_m_A.java_B.java"]).calls.contains
      (t.project.graph.callText ⟨"", ["A.java"]⟩ ⟨"", ["B.java"]⟩ "m") = true :=
    Choice.contains_calls_ofIds (Graph.count_callText _ _ _ _) (by rw [hid]; simp)
  rw [hid] at hoffer
  have hall : ∀ id ∈ ["method_m_A.java_B.java"], ∃ v ∈ offered, v.field? "id" = some (.str id) := by
    simpa using hoffer
  rcases hselect _ (by decide) (by decide) hall with
    ⟨paged, plain, hpaged, hplain, hgraph, hgraph', -⟩
  have hshown : "m" ∈ plain.project.graph.names ⟨"", ["A.java"]⟩ ⟨"", ["B.java"]⟩ := by
    rw [hgraph']
    exact Graph.mem_names_filtered_of_chosen hcalls (by decide) hlabel hchosen
  refine ⟨t, offered, u, paged, plain, hrun, hlist, hoffer, hpaged, hplain, hshown, fun hmem => ?_⟩
  rw [hgraph'] at hshown
  rw [hgraph, Graph.mem_names_filtered_narrowed hcalls _ (by decide) hshown] at hmem
  have hdrops : keepsLabel (functionNames ["method_m_A.java_B.java"]) "m" = false := rfl
  rw [hdrops] at hmem
  cases hmem

end JavaDeps
