import JavaDeps.Proofs.Pages.Engine
import JavaDeps.Proofs.Reached
import JavaDeps.Proofs.Web.Listing

/-!
# The lists of both servers

A server with page functions and a server without them list the functions of one project. The first
one lists page functions before the others, marks services, and lists more calls. Apart from this
the second list is the beginning of the first one.
-/

namespace JavaDeps

/-! ## Entries with different ids -/

/-- Entries that were there first stay in front. -/
theorem prefix_foldl_addEntry (entries found : List (String × Value)) :
    found <+: entries.foldl addEntry found := by
  refine List.foldlRecOn entries addEntry List.prefix_rfl (fun found' hfound e _ => ?_)
  unfold addEntry
  split
  · exact hfound
  · exact hfound.trans (List.prefix_append _ _)

/-- Further entries come behind those that are there. -/
theorem distinctEntries_prefix {entries more : List (String × Value)} (h : entries <+: more) :
    distinctEntries entries <+: distinctEntries more := by
  rcases h with ⟨rest, rfl⟩
  rw [distinctEntries_eq, distinctEntries_eq, List.foldl_append]
  exact prefix_foldl_addEntry rest _

/-- Entries can be left out before they are gathered or afterwards. -/
theorem filter_addEntry (p : String → Bool) (found : List (String × Value)) (e : String × Value) :
    (addEntry found e).filter (fun x => p x.1) =
      if p e.1 then addEntry (found.filter (fun x => p x.1)) e
      else found.filter (fun x => p x.1) := by
  -- Ids that are left out do not hide the id of an entry that is kept.
  have hknown : p e.1 = true →
      (e.1 ∈ (found.filter (fun x => p x.1)).map Prod.fst ↔ e.1 ∈ found.map Prod.fst) := by
    intro hp
    simp only [List.mem_map, List.mem_filter]
    constructor
    · rintro ⟨x, ⟨hx, -⟩, heq⟩
      exact ⟨x, hx, heq⟩
    · rintro ⟨x, hx, heq⟩
      exact ⟨x, ⟨hx, by rw [heq, hp]⟩, heq⟩
  by_cases hp : p e.1 = true
  · by_cases hmem : e.1 ∈ found.map Prod.fst
    · simp only [addEntry, hknown hp, hmem, hp, if_true]
    · simp only [addEntry, hknown hp, hmem, hp, if_true, if_false, List.filter_append]
      simp [hp]
  · by_cases hmem : e.1 ∈ found.map Prod.fst
    · simp only [addEntry, hmem, hp, if_true, Bool.false_eq_true, if_false]
    · simp only [addEntry, hmem, hp, if_false, Bool.false_eq_true, List.filter_append]
      simp [hp]

/-- Ids can be left out before or after. -/
theorem filter_distinctEntries (p : String → Bool) (entries : List (String × Value)) :
    (distinctEntries entries).filter (fun x => p x.1) =
      distinctEntries (entries.filter (fun x => p x.1)) := by
  -- The induction is on the entries, whichever are there before them.
  have hfold : ∀ found : List (String × Value),
      (entries.foldl addEntry found).filter (fun x => p x.1) =
        (entries.filter (fun x => p x.1)).foldl addEntry (found.filter (fun x => p x.1)) := by
    induction entries with
    | nil => exact fun _ => rfl
    | cons e rest ih =>
      intro found
      rw [List.foldl_cons, ih, filter_addEntry]
      by_cases hp : p e.1 = true
      · rw [if_pos hp, List.filter_cons_of_pos (by exact hp), List.foldl_cons]
      · rw [if_neg hp, List.filter_cons_of_neg (by exact hp)]
  rw [distinctEntries_eq, distinctEntries_eq]
  exact hfold []

/-- Entries can be changed before they are gathered or afterwards. -/
theorem map_addEntry (f : Value → Value) (found : List (String × Value)) (e : String × Value) :
    (addEntry found e).map (fun x => (x.1, f x.2)) =
      addEntry (found.map (fun x => (x.1, f x.2))) (e.1, f e.2) := by
  have hkeys : (found.map (fun x => (x.1, f x.2))).map Prod.fst = found.map Prod.fst := by
    rw [List.map_map]
    rfl
  unfold addEntry
  rw [hkeys]
  split
  · rfl
  · rw [List.map_append]
    rfl

/-- Records can be changed before or after. -/
theorem map_distinctEntries (f : Value → Value) (entries : List (String × Value)) :
    (distinctEntries entries).map (fun x => (x.1, f x.2)) =
      distinctEntries (entries.map (fun x => (x.1, f x.2))) := by
  have hfold : ∀ found : List (String × Value),
      (entries.foldl addEntry found).map (fun x => (x.1, f x.2)) =
        (entries.map (fun x => (x.1, f x.2))).foldl addEntry
          (found.map (fun x => (x.1, f x.2))) := by
    induction entries with
    | nil => exact fun _ => rfl
    | cons e rest ih =>
      intro found
      rw [List.foldl_cons, ih, map_addEntry, List.map_cons, List.foldl_cons]
  rw [distinctEntries_eq, distinctEntries_eq]
  exact hfold []

/-! ## Records -/

namespace Value

def hasText (field text : String) (v : Value) : Bool := (v.field? field).any (·.isText text)

def asClass : Value → Value
  | .obj fields => .obj (fields.map (fun f =>
      if f.1 == "type" && f.2.isText "service" then (f.1, .str "class") else f))
  | v => v

theorem hasText_iff {field text : String} {v : Value} :
    v.hasText field text = true ↔ v.field? field = some (.str text) := by
  unfold hasText
  constructor
  · intro h
    rcases (Option.any_eq_true _ _).1 h with ⟨w, hw, htext⟩
    cases w with
    | atom a =>
      cases a with
      | str s => rw [hw, eq_of_beq htext]
      | _ => cases htext
    | list items => cases htext
    | obj fields => cases htext
  · intro h
    rw [h]
    simp [isText]

end Value

/-- As a class, a service keeps all but its type. -/
theorem ListEntry.asClass_toValue (e : ListEntry) :
    e.toValue.asClass =
      { e with type := if e.type = "service" then "class" else e.type }.toValue := by
  by_cases htype : e.type = "service"
  · simp [toValue, Value.asClass, Value.isText, htype]
  · simp [toValue, Value.asClass, Value.isText, htype]

section

variable {entries : List (String × Value)}
  (hids : ∀ e ∈ entries, e.2.field? "id" = some (.str e.1))
include hids

/-- No two of the records have one id. -/
theorem nodup_ids_distinctEntries :
    (((distinctEntries entries).map Prod.snd).map (fun v => v.field? "id")).Nodup := by
  -- The ids of the records are the ids under which they are entered.
  have hsame : ((distinctEntries entries).map Prod.snd).map (fun v => v.field? "id") =
      ((distinctEntries entries).map Prod.fst).map (fun id => some (Value.str id)) := by
    rw [List.map_map, List.map_map]
    exact List.map_congr_left (fun e he => hids e (mem_of_mem_distinctEntries he))
  rw [hsame]
  refine List.Pairwise.map _ (fun id id' hne heq => hne ?_) (nodup_keys_distinctEntries entries)
  simpa [Value.str] using heq

/-- Exactly one of the records has an id that is given. -/
theorem countP_distinctEntries {key : String} (hkey : key ∈ entries.map Prod.fst) :
    ((distinctEntries entries).map Prod.snd).countP (Value.hasText "id" key) = 1 := by
  have hsame : ∀ e ∈ distinctEntries entries,
      Value.hasText "id" key e.2 = true ↔ (e.1 == key) = true := by
    intro e he
    rw [Value.hasText_iff, hids e (mem_of_mem_distinctEntries he)]
    simp [Value.str]
  calc
    ((distinctEntries entries).map Prod.snd).countP (Value.hasText "id" key) =
        (distinctEntries entries).countP (fun e => Value.hasText "id" key e.2) := List.countP_map
    _ = (distinctEntries entries).countP (fun e => e.1 == key) := List.countP_congr hsame
    _ = ((distinctEntries entries).map Prod.fst).count key := by
      rw [List.count, List.countP_map]
      rfl
    _ = 1 := by
      rw [(nodup_keys_distinctEntries entries).count, if_pos (keys_distinctEntries.2 hkey)]

end

/-! ## Both lists -/

/-- Only entries of pages have the type of a page. -/
theorem ListEntry.hasText_type {x : ListEntry} (h : x.type ≠ "html") :
    x.toValue.hasText "type" "html" = false := by
  rw [← Bool.not_eq_true, Value.hasText_iff]
  intro hfield
  have htype : some (Value.str x.type) = some (Value.str "html") := hfield
  exact h (by simpa [Value.str] using htype)

namespace Graph

variable {g : Graph}

/-- Entries of classes and calls do not pass for page functions, neither by id nor by type. -/
theorem mark_of_mem_entries {kind : ServerKind} {e : String × Value} (he : e ∈ g.entries kind) :
    Text.starts e.1 Choice.pageMark = false ∧ e.2.hasText "type" "html" = false := by
  have hmark : ∀ mark rest, mark = Choice.classMark ∨ mark = Choice.callMark →
      Text.starts (mark ++ rest) Choice.pageMark = false := by
    intro mark rest hmark
    rw [Text.starts, String.toList_append]
    rcases hmark with rfl | rfl
    · rfl
    · rfl
  rcases List.mem_map.1 he with ⟨x, hx, rfl⟩
  rcases List.mem_append.1 hx with hx | hx
  · rcases List.mem_map.1 hx with ⟨c, -, rfl⟩
    have htype : kind.classType c.1 ≠ "html" := by
      unfold ServerKind.classType
      split
      · split
        · decide
        · decide
      · decide
    exact ⟨hmark _ _ (Or.inl rfl), ListEntry.hasText_type htype⟩
  · rcases List.mem_flatMap.1 (List.mem_of_mem_take hx) with ⟨row, -, hx⟩
    rcases List.mem_flatMap.1 hx with ⟨cell, -, hx⟩
    rcases List.mem_map.1 hx with ⟨v, -, rfl⟩
    have htype : (g.listedCall row.1 cell.1 v).type ≠ "html" := (by decide : "method" ≠ "html")
    exact ⟨hmark _ _ (Or.inr rfl), ListEntry.hasText_type htype⟩

/-- The id of every class is offered. -/
theorem classId_mem_entries {name : String} (hname : name ∈ g.classes.keys) (kind : ServerKind) :
    Choice.classMark ++ name ∈ (g.entries kind).map Prod.fst := by
  rcases List.mem_map.1 hname with ⟨c, hc, rfl⟩
  have hlisted : g.listedClass kind c ∈ g.classes.entries.map (g.listedClass kind) ++
      g.listedCalls.take kind.callLimit := List.mem_append_left _ (List.mem_map_of_mem hc)
  exact List.mem_map_of_mem (f := Prod.fst)
    (List.mem_map_of_mem (f := fun x : ListEntry => (x.id, x.toValue)) hlisted)

/-- As classes, both servers list a class alike. -/
theorem asClass_listedClass (g : Graph) (c : String × SourcePath) :
    (g.listedClass .withPages c).toValue.asClass = (g.listedClass .withoutPages c).toValue := by
  rw [ListEntry.asClass_toValue]
  unfold listedClass ServerKind.classType
  dsimp only
  split
  · rfl
  · rfl

/-- A call is no service. -/
theorem asClass_of_mem_listedCalls {x : ListEntry} (hx : x ∈ g.listedCalls) :
    x.toValue.asClass = x.toValue := by
  rcases List.mem_flatMap.1 hx with ⟨row, -, hx⟩
  rcases List.mem_flatMap.1 hx with ⟨cell, -, hx⟩
  rcases List.mem_map.1 hx with ⟨v, -, rfl⟩
  rw [ListEntry.asClass_toValue]
  rfl

/-- With services as classes, one server starts with the entries of the other one. -/
theorem entries_prefix (g : Graph) :
    g.entries .withoutPages <+: (g.entries .withPages).map (fun e => (e.1, e.2.asClass)) := by
  have hclasses : (g.classes.entries.map (g.listedClass .withPages)).map
        (fun x => (x.id, x.toValue.asClass)) =
      (g.classes.entries.map (g.listedClass .withoutPages)).map (fun x => (x.id, x.toValue)) := by
    rw [List.map_map, List.map_map]
    refine List.map_congr_left (fun c _ => ?_)
    exact congrArg (Prod.mk _) (g.asClass_listedClass c)
  have hcalls : ∀ n, (g.listedCalls.take n).map (fun x => (x.id, x.toValue.asClass)) =
      (g.listedCalls.take n).map (fun x => (x.id, x.toValue)) := by
    intro n
    refine List.map_congr_left (fun x hx => ?_)
    rw [asClass_of_mem_listedCalls (List.mem_of_mem_take hx)]
  -- Fewer calls are a beginning of more calls.
  have hlimit : g.listedCalls.take 50 <+: g.listedCalls.take 100 :=
    List.take_prefix_take_left (by decide)
  have heq : (g.entries .withPages).map (fun e => (e.1, e.2.asClass)) =
      (g.classes.entries.map (g.listedClass .withoutPages) ++ g.listedCalls.take 100).map
        (fun x => (x.id, x.toValue)) := by
    rw [entries, keyedRecords, List.map_map, List.map_append, List.map_append, ← hclasses, ← hcalls]
    rfl
  rw [heq]
  exact ((List.prefix_append_right_inj _).2 hlimit).map _

end Graph

/-- Page functions are dropped from the list by their type. -/
theorem filter_listed {g : Graph} {kind : ServerKind} {pages : List (String × Value)}
    (hpages : ∀ e ∈ pages, IsPageEntry e) :
    ((distinctEntries (pages ++ g.entries kind)).map Prod.snd).filter
        (fun v => !v.hasText "type" "html") =
      (distinctEntries (g.entries kind)).map Prod.snd := by
  have hpage : ∀ e ∈ pages,
      Text.starts e.1 Choice.pageMark = true ∧ e.2.hasText "type" "html" = true := by
    intro e he
    rcases hpages e he with ⟨f, rfl, hmark⟩
    exact ⟨hmark, Value.hasText_iff.2 rfl⟩
  -- The type of an entry and the mark of its id say the same.
  have hsame : ∀ e ∈ distinctEntries (pages ++ g.entries kind),
      (!e.2.hasText "type" "html") = !Text.starts e.1 Choice.pageMark := by
    intro e he
    rcases List.mem_append.1 (mem_of_mem_distinctEntries he) with he | he
    · rw [(hpage e he).1, (hpage e he).2]
    · rw [(Graph.mark_of_mem_entries he).1, (Graph.mark_of_mem_entries he).2]
  have hdrop : pages.filter (fun e => !Text.starts e.1 Choice.pageMark) = [] := by
    refine List.filter_eq_nil_iff.2 (fun e he => ?_)
    simp [(hpage e he).1]
  have hkeep : (g.entries kind).filter (fun e => !Text.starts e.1 Choice.pageMark) =
      g.entries kind := by
    refine List.filter_eq_self.2 (fun e he => ?_)
    simp [(Graph.mark_of_mem_entries he).1]
  rw [List.filter_map]
  refine congrArg (List.map Prod.snd) ?_
  calc
    (distinctEntries (pages ++ g.entries kind)).filter (fun e => !e.2.hasText "type" "html") =
        (distinctEntries (pages ++ g.entries kind)).filter
          (fun e => !Text.starts e.1 Choice.pageMark) := List.filter_congr hsame
    _ = distinctEntries ((pages ++ g.entries kind).filter
          (fun e => !Text.starts e.1 Choice.pageMark)) :=
      filter_distinctEntries (fun id => !Text.starts id Choice.pageMark) _
    _ = distinctEntries (g.entries kind) := by
      rw [List.filter_append, hdrop, hkeep, List.nil_append]

/-- The list can be given for every listable project. -/
theorem Project.Listable.enumerable {root : SourcePath} {p : Project} (h : p.Listable root) :
    p.graph.Enumerable := by
  have hbelow : ∀ {file}, root.Under file → p.graph.Below file := by
    intro file hfile
    unfold Graph.Below
    rw [h.inside.root_eq]
    exact hfile
  refine ⟨fun e he => hbelow (h.inside.classes_in e he), fun row hrow cell hcell => ?_,
    fun row hrow cell hcell => ?_, fun row hrow cell hcell => ?_⟩
  · exact hbelow (h.inside.calls_in ⟨row.2, hrow, List.mem_map_of_mem hcell⟩).1
  · exact hbelow (h.inside.calls_in ⟨row.2, hrow, List.mem_map_of_mem hcell⟩).2
  · rcases h.labels.calls row hrow cell hcell with ⟨items, hitems, -⟩
    exact ⟨items, hitems⟩

/-- In every session that is reached, both servers give their lists. No id is listed twice, and
every class is listed once by each. Without page functions, and with services as classes, the first
list starts with the second one. -/
theorem functionLists_agree {s : Session} (h : s.Reached) :
    ∃ listed listed' t u,
      functionList .withPages s = (.ok listed, t) ∧
      functionList .withoutPages s = (.ok listed', u) ∧
      (∀ v ∈ listed, ∃ id, v.field? "id" = some (.str id)) ∧
      (listed.map (fun v => v.field? "id")).Nodup ∧
      (∀ name ∈ s.project.graph.classes.keys,
        listed.countP (Value.hasText "id" ("class_" ++ name)) = 1 ∧
        listed'.countP (Value.hasText "id" ("class_" ++ name)) = 1) ∧
      listed' <+: (listed.filter (fun v => !v.hasText "type" "html")).map Value.asClass := by
  rcases h.listable with ⟨root, hlistable⟩
  rcases functionList_entries hlistable.enumerable .withPages with
    ⟨listed, t, hlisted, -, pages, hpages, -, rfl⟩
  rcases functionList_entries hlistable.enumerable .withoutPages with
    ⟨listed', u, hlisted', -, pages', -, hnone, rfl⟩
  obtain rfl := hnone rfl
  have hempty : ∀ e ∈ ([] : List (String × Value)), IsPageEntry e := by simp
  have hclass : ∀ (kind : ServerKind) (pages : List (String × Value)),
      ∀ name ∈ s.project.graph.classes.keys,
        "class_" ++ name ∈ (pages ++ s.project.graph.entries kind).map Prod.fst := by
    intro kind pages name hname
    rw [List.map_append]
    exact List.mem_append_right _ (Graph.classId_mem_entries hname kind)
  refine ⟨_, _, t, u, hlisted, hlisted', fun v hv => ?_, ?_, fun name hname => ⟨?_, ?_⟩, ?_⟩
  · rcases List.mem_map.1 hv with ⟨e, he, rfl⟩
    exact ⟨e.1, field?_id_of_mem hpages (mem_of_mem_distinctEntries he)⟩
  · exact nodup_ids_distinctEntries (fun e he => field?_id_of_mem hpages he)
  · exact countP_distinctEntries (fun e he => field?_id_of_mem hpages he) (hclass _ _ name hname)
  · exact countP_distinctEntries (fun e he => field?_id_of_mem hempty he) (hclass _ _ name hname)
  · -- Of entries that start with others, the first ones of each id start with those of the others.
    have hrest := distinctEntries_prefix s.project.graph.entries_prefix
    rw [← map_distinctEntries] at hrest
    rw [filter_listed hpages, List.map_map]
    have hvalues := hrest.map Prod.snd
    rw [List.map_map] at hvalues
    exact hvalues

/-- A session with a page function, in which a file with a service is analysed. -/
def servedSession : Session :=
  (analyze (openProject .plain "."
    { Session.ofDisk ((default : Disk).put (SourcePath.ofText "UserService.java")
        (.text "class UserService \x7b \x7d")) with
      store :=
        some ⟨functionColumns, [⟨.int 1, .str "login", .str "Auth", .null⟩], .numbers⟩ }).2).2

/-- The page function is listed by one server, and the service once by both. -/
theorem servedSession_lists :
    ∃ listed listed' t u,
      functionList .withPages servedSession = (.ok listed, t) ∧
      functionList .withoutPages servedSession = (.ok listed', u) ∧
      listed.length = 2 ∧ listed.countP (Value.hasText "type" "html") = 1 ∧
      listed.countP (Value.hasText "id" "class_UserService") = 1 ∧
      listed'.countP (Value.hasText "id" "class_UserService") = 1 ∧
      listed' <+: (listed.filter (fun v => !v.hasText "type" "html")).map Value.asClass := by
  have hreached : servedSession.Reached := .analyzed (.opened .plain "." _)
  have hclass : "UserService" ∈ servedSession.project.graph.classes.keys := by decide +kernel
  have htest : (functionList .withPages servedSession).1.toOption.any (fun listed =>
      listed.length == 2 && listed.countP (Value.hasText "type" "html") == 1) = true := by
    decide +kernel
  rcases functionLists_agree hreached with ⟨listed, listed', t, u, hl, hl', -, -, hcount, hrest⟩
  rw [hl] at htest
  have hboth : (listed.length == 2 && listed.countP (Value.hasText "type" "html") == 1) = true :=
    htest
  rcases Bool.and_eq_true_iff.1 hboth with ⟨hlength, hpage⟩
  rcases hcount "UserService" hclass with ⟨hone, hone'⟩
  exact ⟨listed, listed', t, u, hl, hl', eq_of_beq hlength, eq_of_beq hpage, hone, hone', hrest⟩

end JavaDeps
