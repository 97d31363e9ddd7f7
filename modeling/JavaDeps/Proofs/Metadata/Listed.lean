import JavaDeps.Graph.Metadata
import JavaDeps.Proofs.Alike
import JavaDeps.Proofs.Except

/-!
# What a description lists

The description of a graph is a table by simple names. It is written node by node, and every node
writes over the one before it that has its name. In the description of a node, the calls between
files are written over in the same way, while added edges are merged with what is there.
-/

namespace JavaDeps

/-! ## Tables that are written over -/

section

variable {α κ β : Type} [BEq κ] {key : α → κ} {k : κ} {x : α} {xs : List α}

def lastWith (key : α → κ) (k : κ) (xs : List α) : Option α :=
  (xs.filter (fun x => key x == k)).getLast?

theorem lastWith_cons (x : α) (xs : List α) :
    lastWith key k (x :: xs) = (lastWith key k xs).or (if key x == k then some x else none) := by
  unfold lastWith
  by_cases h : (key x == k) = true
  · rw [List.filter_cons_of_pos (by exact h), List.getLast?_cons, if_pos h, Option.or_some]
  · rw [List.filter_cons_of_neg (by exact h), if_neg h, Option.or_none]

def writeEach (key : α → κ) (f : α → Except Fault β) (t : Table κ β) (x : α) :
    Except Fault (Table κ β) := do
  return t.set (key x) (← f x)

variable {f : α → Except Fault β} {t t' : Table κ β}

theorem ok_of_foldlM_writeEach (h : xs.foldlM (writeEach key f) t = .ok t') (hx : x ∈ xs) :
    ∃ v, f x = .ok v := by
  induction xs generalizing t with
  | nil => cases hx
  | cons y rest ih =>
    rcases bind_eq_ok h with ⟨t₁, hstep, hrest⟩
    rcases bind_eq_ok hstep with ⟨v, hv, -⟩
    rcases List.mem_cons.1 hx with rfl | hx
    · exact ⟨v, hv⟩
    · exact ih hrest hx

variable [LawfulBEq κ]

/-- The last element with a key is one of the list, and has the key. -/
theorem mem_of_lastWith (h : lastWith key k xs = some x) : x ∈ xs ∧ key x = k := by
  have hmem : x ∈ xs.filter (fun x => key x == k) := List.mem_of_getLast? h
  exact ⟨(List.mem_filter.1 hmem).1, by simpa using (List.mem_filter.1 hmem).2⟩

theorem exists_lastWith (hx : x ∈ xs) (hk : key x = k) : ∃ y, lastWith key k xs = some y := by
  have hmem : x ∈ xs.filter (fun x => key x == k) := List.mem_filter.2 ⟨hx, by simpa using hk⟩
  exact ⟨_, List.getLast?_eq_some_getLast (List.ne_nil_of_mem hmem)⟩

/-- An element is the last one with its key if no other one has this key. -/
theorem lastWith_eq_some (hx : x ∈ xs) (hk : key x = k) (hall : ∀ y ∈ xs, key y = k → y = x) :
    lastWith key k xs = some x := by
  rcases exists_lastWith hx hk with ⟨y, hy⟩
  rcases mem_of_lastWith hy with ⟨hmem, hkey⟩
  rw [hy, hall y hmem hkey]

/-- A key holds what its last writer gave, or what it held before if nothing was written to it. -/
theorem get?_foldlM_writeEach (h : xs.foldlM (writeEach key f) t = .ok t') (v : β) :
    t'.get? k = some v ↔
      (∃ x, lastWith key k xs = some x ∧ f x = .ok v) ∨
        (lastWith key k xs = none ∧ t.get? k = some v) := by
  induction xs generalizing t with
  | nil =>
    cases h
    simp [lastWith]
  | cons y rest ih =>
    rcases bind_eq_ok h with ⟨t₁, hstep, hrest⟩
    rcases bind_eq_ok hstep with ⟨w, hw, hset⟩
    cases hset
    rw [ih hrest, Table.get?_set, lastWith_cons]
    -- Later writers win; without one, the first element decides if the key is its own.
    cases hlast : lastWith key k rest with
    | some z => simp
    | none =>
      by_cases hy : key y = k
      · simp [hy, hw]
      · simp [hy]

/-- The keys are those before and those of the elements. -/
theorem mem_keys_foldlM_writeEach (h : xs.foldlM (writeEach key f) t = .ok t') :
    k ∈ t'.keys ↔ (∃ x ∈ xs, key x = k) ∨ k ∈ t.keys := by
  induction xs generalizing t with
  | nil =>
    cases h
    simp
  | cons y rest ih =>
    rcases bind_eq_ok h with ⟨t₁, hstep, hrest⟩
    rcases bind_eq_ok hstep with ⟨w, hw, hset⟩
    cases hset
    rw [ih hrest, Table.mem_keys_set]
    simp only [List.mem_cons, or_and_right, exists_or, exists_eq_left, eq_comm (a := k)]
    exact or_left_comm.trans or_assoc.symm

end

/-! ## Labels -/

/-- The elements of the value are as described. -/
def Value.Consists (p : Value → Prop) (v : Value) : Prop :=
  ∃ items, v.elements = .ok items ∧ ∀ item ∈ items, p item

namespace Value.Consists

variable {p : Value → Prop}

theorem nil : (Value.list []).Consists p := ⟨[], rfl, by simp⟩

/-- A list consists of its elements. -/
theorem list_iff {items : List Value} : (Value.list items).Consists p ↔ ∀ item ∈ items, p item := by
  constructor
  · rintro ⟨items', h, hp⟩
    cases h
    exact hp
  · exact fun hp => ⟨items, rfl, hp⟩

theorem ofNames (hp : ∀ s, p (.str s)) (names : List String) :
    (Value.ofNames names).Consists p := by
  refine list_iff.2 (fun item hitem => ?_)
  rcases List.mem_map.1 hitem with ⟨s, -, rfl⟩
  exact hp s

theorem mono {q : Value → Prop} {v : Value} (h : v.Consists p) (hpq : ∀ item, p item → q item) :
    v.Consists q := by
  rcases h with ⟨items, hitems, hp⟩
  exact ⟨items, hitems, fun item hitem => hpq item (hp item hitem)⟩

end Value.Consists

abbrev Value.Textual (v : Value) : Prop := ∃ s, v = .str s

def Value.Lists (labels label : Value) : Prop :=
  ∃ items, labels.labelList = .ok items ∧ ∃ item ∈ items, item.Alike label

/-- Labels without elements count as none. -/
theorem Value.labelList_of_elements {labels : Value} {items : List Value}
    (h : labels.elements = .ok items) : labels.labelList = .ok items := by
  unfold labelList
  split
  · exact h
  · rename_i hfalsy
    match labels with
    | .list [] => exact h
    | .obj [] => exact h
    | .str s =>
      have hs : s = "" := by simpa [isTruthy, Atom.isTruthy] using hfalsy
      subst hs
      exact h
    | .null => cases h
    | .bool _ => cases h
    | .int _ => cases h
    | .atom (.decimal _) => cases h

theorem Value.asKey_eq_ok {v : Value} {a : Atom} : v.asKey = .ok a ↔ v = .atom a := by
  cases v with
  | atom b => simp [asKey]
  | list items => simp [asKey]
  | obj fields => simp [asKey]

/-- Values are taken as keys only if they are single values. -/
theorem Value.eq_of_mapM_asKey {items : List Value} {keys : List Atom}
    (h : items.mapM Value.asKey = .ok keys) : items = keys.map .atom := by
  induction items generalizing keys with
  | nil =>
    cases h
    rfl
  | cons v rest ih =>
    rcases mapM_cons_eq_ok h with ⟨a, others, ha, hothers, rfl⟩
    rw [asKey_eq_ok.1 ha, ih hothers]
    rfl

namespace Calls

variable {c c' : Calls} {name name' : String} {labels label : Value}

def Lists (c : Calls) (name : String) (label : Value) : Prop :=
  ∃ present, c.get? name = some present ∧ ∃ item ∈ present, item.Alike label

/-- What is written under a name is listed under no other one. -/
theorem lists_set {items : List Value} :
    Lists (c.set name items) name' label ↔
      if name = name' then ∃ item ∈ items, item.Alike label else c.Lists name' label := by
  unfold Lists
  rw [Table.get?_set]
  by_cases h : name = name' <;> simp [h]

/-- The labels of a set of keys are those of the list from which it is made, up to equality. -/
theorem alike_ofList {keys : List Atom} :
    (∃ item ∈ (SortedSet.ofList keys).toList.map Value.atom, item.Alike label) ↔
      ∃ item ∈ keys.map Value.atom, item.Alike label := by
  have hatoms : ∀ atoms : List Atom, (∃ item ∈ atoms.map Value.atom, item.Alike label) ↔
      ∃ b, label = .atom b ∧ ∃ a ∈ atoms, (a == b) = true := by
    intro atoms
    constructor
    · rintro ⟨item, hitem, halike⟩
      rcases List.mem_map.1 hitem with ⟨a, ha, rfl⟩
      rcases Value.atom_alike.1 halike with ⟨b, rfl, hab⟩
      exact ⟨b, rfl, a, ha, hab⟩
    · rintro ⟨b, rfl, a, ha, hab⟩
      exact ⟨.atom a, List.mem_map.2 ⟨a, ha, rfl⟩, Value.atom_alike.2 ⟨b, rfl, hab⟩⟩
  rw [hatoms, hatoms]
  refine exists_congr (fun b => and_congr_right (fun _ => ?_))
  exact List.any_eq_true.symm.trans SortedSet.contains_ofList_iff

/-- Merging lists what was listed before and the new labels. -/
theorem lists_mergeWith (h : c.mergeWith name labels = .ok c') :
    c'.Lists name' label ↔ c.Lists name' label ∨ (name = name' ∧ labels.Lists label) := by
  unfold mergeWith at h
  cases hpresent : c.get? name with
  | none =>
    rw [hpresent] at h
    rcases bind_eq_ok h with ⟨items, hitems, h⟩
    cases h
    rw [lists_set]
    by_cases hname : name = name'
    · subst hname
      simp [Lists, hpresent, Value.Lists, hitems]
    · simp [hname]
  | some present =>
    rw [hpresent] at h
    rcases bind_eq_ok h with ⟨items, hitems, h⟩
    rcases bind_eq_ok h with ⟨keys, hkeys, h⟩
    cases h
    have hall := Value.eq_of_mapM_asKey hkeys
    rw [lists_set, alike_ofList, ← hall]
    by_cases hname : name = name'
    · subst hname
      simp only [Lists, hpresent, Value.Lists, Value.labelList_of_elements hitems, if_true,
        true_and, Option.some.injEq, Except.ok.injEq, exists_eq_left', List.mem_append,
        or_and_right, exists_or]
    · simp [hname]

theorem mem_keys_mergeWith (h : c.mergeWith name labels = .ok c') :
    name' ∈ c'.keys ↔ name' = name ∨ name' ∈ c.keys := by
  unfold mergeWith at h
  cases hpresent : c.get? name with
  | none =>
    rw [hpresent] at h
    rcases bind_eq_ok h with ⟨items, -, h⟩
    cases h
    exact Table.mem_keys_set
  | some present =>
    rw [hpresent] at h
    rcases bind_eq_ok h with ⟨items, -, h⟩
    rcases bind_eq_ok h with ⟨keys, -, h⟩
    cases h
    exact Table.mem_keys_set

end Calls

/-! ## Gathered calls -/

/-- Edges, each with the name of its other end and its labels, give a label for a name: the last
call to the name does, or some added edge. -/
def Gathers (calls custom : List (String × Value)) (name : String) (label : Value) : Prop :=
  (∃ e, lastWith Prod.fst name calls = some e ∧ e.2.Lists label) ∨
    ∃ e ∈ custom, e.1 = name ∧ e.2.Lists label

/-- What is gathered from edges: the names at their other ends, with the labels that they give. -/
structure Gathered (calls custom : List (String × Value)) (c : Calls) : Prop where
  mem_keys : ∀ name, name ∈ c.keys ↔ ∃ e ∈ calls ++ custom, e.1 = name
  lists_iff : ∀ name label, c.Lists name label ↔ Gathers calls custom name label

/-- Merging adds the labels of all edges to those under their names. -/
theorem mergeAll_lists {custom : List (String × Value)} {c c' : Calls}
    (h : custom.foldlM (fun (c : Calls) e => c.mergeWith e.1 e.2) c = .ok c') (name : String) :
    (name ∈ c'.keys ↔ name ∈ c.keys ∨ ∃ e ∈ custom, e.1 = name) ∧
      ∀ label, c'.Lists name label ↔
        c.Lists name label ∨ ∃ e ∈ custom, e.1 = name ∧ e.2.Lists label := by
  induction custom generalizing c with
  | nil =>
    cases h
    simp
  | cons e rest ih =>
    rcases bind_eq_ok h with ⟨c₁, hstep, hrest⟩
    rcases ih hrest with ⟨hkeys, hlists⟩
    refine ⟨?_, fun label => ?_⟩
    · rw [hkeys, Calls.mem_keys_mergeWith hstep]
      simp only [List.mem_cons, or_and_right, exists_or, exists_eq_left, eq_comm (a := name)]
      exact or_assoc.trans or_left_comm
    · rw [hlists, Calls.lists_mergeWith hstep]
      simp only [List.mem_cons, or_and_right, exists_or, exists_eq_left]
      exact or_assoc

/-- What is gathered are the last call to each name and all added edges. -/
theorem gatherCalls_gathered {calls custom : List (String × Value)} {c : Calls}
    (h : Graph.gatherCalls calls custom = .ok c) : Gathered calls custom c := by
  rcases bind_eq_ok h with ⟨c₁, hcalls, hcustom⟩
  -- Entering labels in place of others is writing them under the name of the other end.
  have hwritten : calls.foldlM (writeEach Prod.fst (fun e => e.2.labelList)) Table.empty = .ok c₁ :=
    hcalls
  constructor
  · intro name
    rw [(mergeAll_lists hcustom name).1, mem_keys_foldlM_writeEach hwritten]
    simp [or_and_right, exists_or]
  · intro name label
    have hfirst : c₁.Lists name label ↔
        ∃ e, lastWith Prod.fst name calls = some e ∧ e.2.Lists label := by
      unfold Calls.Lists
      simp only [get?_foldlM_writeEach hwritten, Table.get?_empty]
      constructor
      · rintro ⟨present, ⟨e, he, hitems⟩ | ⟨-, hnone⟩, hitem⟩
        · exact ⟨e, he, present, hitems, hitem⟩
        · cases hnone
      · rintro ⟨e, he, present, hitems, hitem⟩
        exact ⟨present, Or.inl ⟨e, he, hitems⟩, hitem⟩
    rw [(mergeAll_lists hcustom name).2, hfirst]
    rfl

/-! ## Edges -/

namespace Graph

/-- The edges of a graph with their labels: the calls between files and the added edges. -/
inductive Entry (g : Graph) : Node → Node → Value → Prop where
  | call {p q : SourcePath} {row : Targets SourcePath} {labels : Labels}
      (hrow : (p, row) ∈ g.calls.entries) (hlabels : (q, labels) ∈ row.entries) :
      Entry g (.file p) (.file q) labels.value
  | custom {m n : Node} {row : Targets Node} {labels : Labels}
      (hrow : (m, row) ∈ g.customEdges.entries) (hlabels : (n, labels) ∈ row.entries) :
      Entry g m n labels.value

variable {g : Graph}

/-- An edge with the given labels runs between nodes of two simple names. -/
def Runs (g : Graph) (a b : String) (labels : Value) : Prop :=
  ∃ source target, g.Entry source target labels ∧ source.simpleName = a ∧ target.simpleName = b

/-- The edges of a graph are those that are drawn, calls and added edges. -/
theorem runs_iff {a b : String} {labels : Value} :
    g.Runs a b labels ↔ (a, b, labels) ∈ Dot.namedEdges SourcePath.stem g.calls ∨
      (a, b, labels) ∈ Dot.namedEdges Node.simpleName g.customEdges := by
  simp only [Dot.namedEdges, List.mem_flatMap, List.mem_map]
  constructor
  · rintro ⟨source, target, hentry, rfl, rfl⟩
    cases hentry with
    | call hrow hlabels => exact Or.inl ⟨_, hrow, _, hlabels, rfl⟩
    | custom hrow hlabels => exact Or.inr ⟨_, hrow, _, hlabels, rfl⟩
  · rintro (⟨⟨p, row⟩, hrow, ⟨q, labels⟩, hlabels, h⟩ | ⟨⟨m, row⟩, hrow, ⟨n, labels⟩, hlabels, h⟩)
    · cases h
      exact ⟨.file p, .file q, .call hrow hlabels, rfl, rfl⟩
    · cases h
      exact ⟨m, n, .custom hrow hlabels, rfl, rfl⟩

variable {n : Node} {e : String × Value}

/-- The edges that are gathered from a node start at nodes that compare as equal to it. -/
theorem entry_of_mem_from (h : e ∈ g.callsFrom n ++ g.customFrom n) :
    ∃ source target, g.Entry source target e.2 ∧ (source == n) = true ∧
      target.simpleName = e.1 := by
  rcases List.mem_append.1 h with h | h
  · cases n with
    | named a => cases h
    | file p =>
      rcases List.mem_map.1 h with ⟨⟨q, labels⟩, hlabels, rfl⟩
      rcases Table.entry_of_mem_getD hlabels with ⟨p', row, hrow, hp, hmem⟩
      exact ⟨.file p', .file q, .call hrow hmem,
        Node.beq_file.2 (congrArg Node.file (eq_of_beq hp)), rfl⟩
  · rcases List.mem_map.1 h with ⟨⟨target, labels⟩, hlabels, rfl⟩
    rcases Table.entry_of_mem_getD hlabels with ⟨source, row, hrow, hsource, hmem⟩
    exact ⟨source, target, .custom hrow hmem, hsource, rfl⟩

/-- The edges that are gathered to a node end at nodes that compare as equal to it. -/
theorem entry_of_mem_to (h : e ∈ g.callsTo n ++ g.customTo n) :
    ∃ source target, g.Entry source target e.2 ∧ (target == n) = true ∧
      source.simpleName = e.1 := by
  rcases List.mem_append.1 h with h | h
  · cases n with
    | named a => cases h
    | file q =>
      rcases List.mem_filterMap.1 h with ⟨⟨p, row⟩, hrow, hfound⟩
      rcases Option.map_eq_some_iff.1 hfound with ⟨labels, hlabels, rfl⟩
      rcases Table.entry_of_get? hlabels with ⟨q', hmem, hq⟩
      exact ⟨.file p, .file q', .call hrow hmem,
        Node.beq_file.2 (congrArg Node.file (eq_of_beq hq)), rfl⟩
  · rcases List.mem_filterMap.1 h with ⟨⟨source, row⟩, hrow, hfound⟩
    rcases Option.map_eq_some_iff.1 hfound with ⟨labels, hlabels, rfl⟩
    rcases Table.entry_of_get? hlabels with ⟨target, hmem, htarget⟩
    exact ⟨source, target, .custom hrow hmem, htarget, rfl⟩

end Graph

/-! ## Descriptions -/

namespace Graph

variable {g : Graph} {order : List Node} {files : Table String FileInfo}

/-- A file lists, on either side, what its calls and its added edges gather. -/
theorem fileInfo_gathered {n : Node} {info : FileInfo} (h : g.fileInfo n = .ok info) :
    Gathered (g.callsFrom n) (g.customFrom n) info.outgoing ∧
      Gathered (g.callsTo n) (g.customTo n) info.incoming := by
  rcases bind_eq_ok h with ⟨⟨classes, isCustom⟩, -, h⟩
  rcases bind_eq_ok h with ⟨outgoing, houtgoing, h⟩
  rcases bind_eq_ok h with ⟨incoming, hincoming, h⟩
  cases h
  exact ⟨gatherCalls_gathered houtgoing, gatherCalls_gathered hincoming⟩

/-- The node that is described under a name: of those with this name, the last one in the order in
which the nodes are described. -/
def described (order : List Node) (name : String) : Option Node :=
  lastWith Node.simpleName name order

/-- The nodes of the graph in an order in which they may be described. They are members of a set, so
this can be any order. -/
def Orders (g : Graph) (order : List Node) : Prop := order.Perm g.describedNodes.toList

/-- Under a name stands the description of the node that the order gives the name to. -/
theorem get?_fileInfos (h : g.fileInfos order = .ok files) {name : String} {info : FileInfo} :
    files.get? name = some info ↔ ∃ n, described order name = some n ∧ g.fileInfo n = .ok info := by
  have hwritten : order.foldlM (writeEach Node.simpleName g.fileInfo) Table.empty = .ok files := h
  rw [get?_foldlM_writeEach hwritten]
  simp [described]

/-- Exactly the names of the nodes in the order are described. -/
theorem mem_keys_fileInfos (h : g.fileInfos order = .ok files) {name : String} :
    name ∈ files.keys ↔ ∃ n ∈ order, n.simpleName = name := by
  have hwritten : order.foldlM (writeEach Node.simpleName g.fileInfo) Table.empty = .ok files := h
  rw [mem_keys_foldlM_writeEach hwritten]
  simp

/-- The node that is described under a name has a description. -/
theorem exists_fileInfo (h : g.fileInfos order = .ok files) {name : String} {n : Node}
    (hn : described order name = some n) :
    ∃ info, g.fileInfo n = .ok info ∧ files.get? name = some info := by
  have hwritten : order.foldlM (writeEach Node.simpleName g.fileInfo) Table.empty = .ok files := h
  rcases ok_of_foldlM_writeEach hwritten (mem_of_lastWith hn).1 with ⟨info, hinfo⟩
  exact ⟨info, hinfo, (get?_fileInfos h).2 ⟨n, hn, hinfo⟩⟩

end Graph

/-- A label is listed among the outgoing calls of the first name, under the second one. -/
def ListsOutgoing (files : Table String FileInfo) (a b : String) (label : Value) : Prop :=
  ∃ info, files.get? a = some info ∧ info.outgoing.Lists b label

/-- A label is listed among the incoming calls of the second name, under the first one. -/
def ListsIncoming (files : Table String FileInfo) (a b : String) (label : Value) : Prop :=
  ∃ info, files.get? b = some info ∧ info.incoming.Lists a label

namespace Graph

variable {g : Graph} {order : List Node} {files : Table String FileInfo}
  {a b : String} {label : Value}

/-- What is listed on one side of the description under a name is what is gathered for the node that
is described there. -/
theorem lists_iff_gathers (h : g.fileInfos order = .ok files) {side : FileInfo → Calls}
    {calls custom : Node → List (String × Value)}
    (hside : ∀ n info, g.fileInfo n = .ok info → Gathered (calls n) (custom n) (side info)) :
    (∃ info, files.get? a = some info ∧ (side info).Lists b label) ↔
      ∃ n, described order a = some n ∧ Gathers (calls n) (custom n) b label := by
  constructor
  · rintro ⟨info, hinfo, hlists⟩
    rcases (get?_fileInfos h).1 hinfo with ⟨n, hn, hdescription⟩
    exact ⟨n, hn, ((hside n info hdescription).lists_iff b label).1 hlists⟩
  · rintro ⟨n, hn, hgathers⟩
    rcases exists_fileInfo h hn with ⟨info, hdescription, hinfo⟩
    exact ⟨info, hinfo, ((hside n info hdescription).lists_iff b label).2 hgathers⟩

/-- Only the edges from the node that is described under a name are listed for it. -/
theorem listsOutgoing_iff (h : g.fileInfos order = .ok files) :
    ListsOutgoing files a b label ↔
      ∃ n, described order a = some n ∧ Gathers (g.callsFrom n) (g.customFrom n) b label :=
  lists_iff_gathers h (fun _ _ hinfo => (fileInfo_gathered hinfo).1)

/-- Only the edges to the node that is described under a name are listed for it. -/
theorem listsIncoming_iff (h : g.fileInfos order = .ok files) :
    ListsIncoming files a b label ↔
      ∃ n, described order b = some n ∧ Gathers (g.callsTo n) (g.customTo n) a label :=
  lists_iff_gathers h (fun _ _ hinfo => (fileInfo_gathered hinfo).2)

end Graph

end JavaDeps
