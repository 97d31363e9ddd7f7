import Mathlib.Data.List.Perm.Subperm
import JavaDeps.Proofs.Findings
import JavaDeps.Proofs.Selection.Restrict

/-!
# Classes of restricted graphs

Which classes a restricted graph lists, with which files, and of which files it still knows the
classes.
-/

namespace JavaDeps

namespace Restriction

variable {g : Graph}

/-! ## Listed classes -/

/-- A name is listed with the file, unless it is listed before. -/
theorem get?_classes_keepName (file : SourcePath) (r : Restriction) (name key : String) :
    (keepName g file r name).classes.get? key =
      (r.classes.get? key).or (if key = name then some file else none) := by
  by_cases h : r.classes.contains name = true
  · rw [keepName, if_pos h]
    rw [Table.contains_eq_isSome] at h
    by_cases hk : key = name
    · subst hk
      rcases Option.isSome_iff_exists.1 h with ⟨v, hv⟩
      simp [hv]
    · simp [hk]
  · rw [keepName, if_neg h]
    rw [Table.contains_eq_isSome, Bool.not_eq_true, Option.isSome_eq_false_iff,
      Option.isNone_iff_eq_none] at h
    rw [Table.get?_set]
    by_cases hk : key = name
    · subst hk
      simp [h]
    · have hk' : ¬ name = key := fun hk' => hk hk'.symm
      simp [hk, hk']

/-- The names of a file are listed with it, unless they are listed before. -/
theorem get?_classes_keepFile (file : SourcePath) (r : Restriction) (key : String) :
    (keepFile g file r).classes.get? key =
      (r.classes.get? key).or (if (g.classesOf file).contains key then some file else none) := by
  have hfold : ∀ (names : List String) (r : Restriction),
      (names.foldl (keepName g file) r).classes.get? key =
        (r.classes.get? key).or (if key ∈ names then some file else none) := by
    intro names
    induction names with
    | nil => simp
    | cons name rest ih =>
      intro r
      rw [List.foldl_cons, ih, get?_classes_keepName, Option.or_assoc]
      by_cases hk : key = name <;> simp [hk]
  rw [keepFile_eq, hfold]
  simp only [SortedSet.contains_iff]

/-- A name is listed with the first file that declares it, unless it is listed before. -/
theorem get?_classes_keepFiles (files : List SourcePath) (r : Restriction) (key : String) :
    (keepFiles g files r).classes.get? key =
      (r.classes.get? key).or (files.find? (fun file => (g.classesOf file).contains key)) := by
  induction files generalizing r with
  | nil => simp [keepFiles]
  | cons file rest ih =>
    simp only [keepFiles, List.foldl_cons] at ih ⊢
    rw [ih, get?_classes_keepFile, Option.or_assoc, List.find?_cons]
    by_cases h : (g.classesOf file).contains key = true <;> simp [h]

/-- Exactly the chosen classes are kept, with their files. -/
theorem get?_classes_keepClasses (chosen : NameSet) (key : String) :
    (keepClasses g chosen).classes.get? key =
      if chosen.contains key then g.classes.get? key else none := by
  have hfold : ∀ (entries : List (String × SourcePath)) (r : Restriction),
      (entries.map Prod.fst).Nodup →
      (entries.foldl (keepClass g chosen) r).classes.get? key =
        if chosen.contains key then
          ((entries.find? (fun e => e.1 == key)).map Prod.snd).or (r.classes.get? key)
        else r.classes.get? key := by
    intro entries
    induction entries with
    | nil => simp
    | cons e rest ih =>
      intro r hnd
      rw [List.map_cons, List.nodup_cons] at hnd
      rw [List.foldl_cons, ih _ hnd.2]
      -- No name is listed twice, so the rest says nothing about the key that was found.
      by_cases hk : e.1 = key
      · have hrest : rest.find? (fun e => e.1 == key) = none := by
          refine List.find?_eq_none.2 (fun d hd hkey => hnd.1 ?_)
          rw [hk, ← eq_of_beq hkey]
          exact List.mem_map_of_mem hd
        by_cases hc : chosen.contains key = true <;> simp [keepClass, hk, hc, hrest, Table.get?_set]
      · by_cases hc : chosen.contains e.1 = true <;> simp [keepClass, hk, hc, Table.get?_set]
  rw [keepClasses_eq, hfold _ _ g.classes.nodup_keys]
  simp [Table.get?]

/-! ## Files whose classes are known -/

/-- The classes of a file are known exactly if one of them is listed with the file. -/
structure Agrees (g : Graph) (r : Restriction) : Prop where
  listed : ∀ {name file}, r.classes.get? name = some file →
    r.declared.get? file = g.declared.get? file
  unlisted : ∀ {file}, (∀ name, r.classes.get? name ≠ some file) → r.declared.get? file = none

namespace Agrees

theorem empty : Agrees g {} := by
  constructor
  · intro name file h
    cases h
  · intro file _
    rfl

/-- Listing a class that was not listed before. -/
theorem add {r r' : Restriction} (h : Agrees g r) {name : String} (file : SourcePath)
    (hnew : r.classes.get? name = none)
    (hclasses : ∀ key, r'.classes.get? key = if name = key then some file else r.classes.get? key)
    (hdeclared : ∀ f, r'.declared.get? f =
      if file = f then g.declared.get? file else r.declared.get? f) : Agrees g r' := by
  constructor
  · intro key f hkey
    rw [hdeclared]
    by_cases hf : file = f
    · rw [if_pos hf, hf]
    · rw [if_neg hf]
      rw [hclasses] at hkey
      by_cases hk : name = key
      · rw [if_pos hk] at hkey
        exact absurd (Option.some.inj hkey) hf
      · rw [if_neg hk] at hkey
        exact h.listed hkey
  · intro f hnone
    -- The file of the new class is listed now, so the one at hand is another one.
    have hf : ¬ file = f := by
      intro hf
      exact hnone name (by rw [hclasses, if_pos rfl, hf])
    rw [hdeclared, if_neg hf]
    refine h.unlisted (fun key hkey => hnone key ?_)
    rw [hclasses]
    by_cases hk : name = key
    · subst hk
      rw [hnew] at hkey
      cases hkey
    · rw [if_neg hk, hkey]

/-- A file that is kept is known with all its classes. -/
theorem keepFile {r : Restriction} (h : Agrees g r) (file : SourcePath) :
    Agrees g (keepFile g file r) := by
  have hfold : ∀ (names : List String) (r : Restriction),
      (∀ name ∈ names, g.declared.get? file = some (g.classesOf file)) → Agrees g r →
      Agrees g (names.foldl (keepName g file) r) := by
    intro names
    induction names with
    | nil => exact fun r _ hr => hr
    | cons name rest ih =>
      intro r hnames hr
      refine ih _ (fun n hn => hnames n (List.mem_cons_of_mem _ hn)) ?_
      by_cases hc : r.classes.contains name = true
      · rwa [keepName, if_pos hc]
      · have hnew : r.classes.get? name = none := by
          rwa [Table.contains_eq_isSome, Bool.not_eq_true, Option.isSome_eq_false_iff,
            Option.isNone_iff_eq_none] at hc
        rw [keepName, if_neg hc]
        refine hr.add file hnew (fun key => by simp [Table.get?_set]) (fun f => ?_)
        simp [Table.get?_set, hnames name List.mem_cons_self]
  rw [keepFile_eq]
  exact hfold _ _ (fun _ hname => declared_of_mem_classesOf hname) h

theorem keepFiles {r : Restriction} (h : Agrees g r) (files : List SourcePath) :
    Agrees g (keepFiles g files r) := by
  induction files generalizing r with
  | nil => exact h
  | cons file rest ih => exact ih (h.keepFile file)

theorem keepClasses (chosen : NameSet) :
    Agrees g (keepClasses g chosen) := by
  have hfold : ∀ (entries : List (String × SourcePath)) (r : Restriction),
      (entries.map Prod.fst).Nodup → (∀ name ∈ entries.map Prod.fst, r.classes.get? name = none) →
      Agrees g r → Agrees g (entries.foldl (keepClass g chosen) r) := by
    intro entries
    induction entries with
    | nil => exact fun r _ _ hr => hr
    | cons e rest ih =>
      intro r hnd hnew hr
      rw [List.map_cons, List.nodup_cons] at hnd
      have hrest : ∀ name ∈ rest.map Prod.fst, r.classes.get? name = none :=
        fun name hname => hnew name (List.mem_cons_of_mem _ hname)
      rw [List.foldl_cons]
      by_cases hc : chosen.contains e.1 = true
      · rw [keepClass, if_pos hc]
        refine ih _ hnd.2 (fun name hname => ?_) (hr.add e.2 (hnew e.1 List.mem_cons_self)
          (fun key => by simp [Table.get?_set]) (fun f => ?_))
        · have hne : ¬ e.1 = name := fun he => hnd.1 (he ▸ hname)
          simp [Table.get?_set, hne, hrest name hname]
        · cases hd : g.declared.get? e.2 with
          | some names => simp [Table.get?_set]
          | none =>
            by_cases hf : e.2 = f
            · subst hf
              -- The file has no classes in the graph, so none are known of it here.
              rw [if_pos rfl]
              by_cases hlisted : ∃ name, r.classes.get? name = some e.2
              · rcases hlisted with ⟨name, hname⟩
                rw [hr.listed hname, hd]
              · exact hr.unlisted (fun name hname => hlisted ⟨name, hname⟩)
            · rw [if_neg hf]
      · rw [keepClass, if_neg hc]
        exact ih r hnd.2 hrest hr
  rw [keepClasses_eq]
  exact hfold _ _ g.classes.nodup_keys (fun _ _ => rfl) empty

end Agrees

end Restriction

namespace Graph

variable {g : Graph} (chosen calls : NameSet)

/-- A chosen class stays with its file. Another one is listed with the first file at an end of a
kept edge that declares it. -/
theorem get?_classes_restricted (key : String) :
    (g.restricted chosen calls).classes.get? key =
      (if chosen.contains key then g.classes.get? key else none).or
        ((Restriction.endsOf (g.keptEdges chosen calls)).find?
          (fun file => (g.classesOf file).contains key)) := by
  show (g.shown chosen calls).classes.get? key = _
  rw [shown, Restriction.get?_classes_keepFiles, Restriction.get?_classes_keepClasses]

/-- What a selection shows agrees with the graph. -/
theorem shown_agrees : Restriction.Agrees g (g.shown chosen calls) :=
  (Restriction.Agrees.keepClasses chosen).keepFiles _

variable {chosen calls}

/-- Of a file with a listed class, all classes are known as before. -/
theorem classesOf_listed {name : String} {file : SourcePath}
    (h : (g.restricted chosen calls).classes.get? name = some file) :
    (g.restricted chosen calls).classesOf file = g.classesOf file := by
  show ((g.shown chosen calls).declared.get? file).getD SortedSet.empty = _
  rw [(shown_agrees chosen calls).listed h]
  rfl

/-- Of a file without a listed class, no classes are known. -/
theorem classesOf_unlisted {file : SourcePath}
    (h : ∀ name, (g.restricted chosen calls).classes.get? name ≠ some file) :
    (g.restricted chosen calls).classesOf file = SortedSet.empty := by
  show ((g.shown chosen calls).declared.get? file).getD SortedSet.empty = _
  rw [(shown_agrees chosen calls).unlisted h]
  rfl

end Graph

/-! ## Graphs of an analysis -/

namespace Graph

def Knows (g : Graph) (file : SourcePath) : Prop := (g.classesOf file).toList ≠ []

theorem knows_of_contains {g : Graph} {file : SourcePath} {name : String}
    (h : (g.classesOf file).contains name = true) : g.Knows file :=
  List.ne_nil_of_mem (SortedSet.contains_iff.1 h)

theorem knows_of_declaresChosen {g : Graph} {chosen : NameSet} {file : SourcePath}
    (h : Restriction.declaresChosen g chosen file = true) : g.Knows file := by
  rcases List.any_eq_true.1 h with ⟨name, hname, -⟩
  exact List.ne_nil_of_mem hname

section

variable {g : Graph} {chosen calls : NameSet} {name : String} {file : SourcePath}

/-- A class that is listed after a restriction was declared by its file before. -/
theorem listed_cases
    (hget : (g.restricted chosen calls).classes.get? name = some file) :
    chosen.contains name = true ∧ g.classes.get? name = some file ∨
      file ∈ Restriction.endsOf (g.keptEdges chosen calls) ∧
        (g.classesOf file).contains name = true := by
  rw [get?_classes_restricted, Option.or_eq_some_iff] at hget
  rcases hget with hget | ⟨-, hfind⟩
  · by_cases hc : chosen.contains name = true
    · rw [if_pos hc] at hget
      exact Or.inl ⟨hc, hget⟩
    · rw [if_neg hc] at hget
      cases hget
  · have hcontains := List.find?_some hfind
    exact Or.inr ⟨List.mem_of_find?_eq_some hfind, hcontains⟩

/-- Every class of a file at an end of a kept edge is listed. -/
theorem listed_of_end
    (hend : file ∈ Restriction.endsOf (g.keptEdges chosen calls))
    (hname : (g.classesOf file).contains name = true) :
    ∃ file', (g.restricted chosen calls).classes.get? name = some file' := by
  have hfind : ((Restriction.endsOf (g.keptEdges chosen calls)).find?
      (fun file => (g.classesOf file).contains name)).isSome = true :=
    List.find?_isSome.2 ⟨file, hend, hname⟩
  rcases Option.isSome_iff_exists.1 hfind with ⟨file', hfile'⟩
  rw [get?_classes_restricted, hfile']
  cases (if chosen.contains name = true then g.classes.get? name else none) with
  | none => exact ⟨file', rfl⟩
  | some file'' => exact ⟨file'', rfl⟩

end

namespace Regular

variable {inside : SourcePath → Prop} {spelled : String → Prop} {g : Graph}
  (h : g.Regular inside spelled) {chosen calls : NameSet}

include h

theorem class_knows {name : String} {file : SourcePath} (hget : g.classes.get? name = some file) :
    g.Knows file :=
  h.class_declared _ (Table.mem_entries_of_get? hget)

/-- A restriction knows the classes of exactly the files that it lists a class with. -/
theorem restricted_knows_iff {file : SourcePath} :
    (g.restricted chosen calls).Knows file ↔
      ∃ name, (g.restricted chosen calls).classes.get? name = some file := by
  constructor
  · intro hknows
    refine Classical.byContradiction (fun hnone => hknows ?_)
    rw [classesOf_unlisted (fun name hname => hnone ⟨name, hname⟩)]
    rfl
  · rintro ⟨name, hget⟩
    unfold Knows
    rw [classesOf_listed hget]
    rcases listed_cases hget with ⟨-, hclass⟩ | ⟨-, hcontains⟩
    · exact h.class_knows hclass
    · exact knows_of_contains hcontains

/-- Whatever file a restriction knows, it knows its classes as before. -/
theorem classesOf_restricted {file : SourcePath} (hknows : (g.restricted chosen calls).Knows file) :
    (g.restricted chosen calls).classesOf file = g.classesOf file := by
  rcases h.restricted_knows_iff.1 hknows with ⟨name, hget⟩
  exact classesOf_listed hget

/-- A restriction lists no further classes. -/
theorem restricted_keys {name : String} {file : SourcePath}
    (hget : (g.restricted chosen calls).classes.get? name = some file) : name ∈ g.classes.keys := by
  rcases listed_cases hget with ⟨-, hclass⟩ | ⟨-, hcontains⟩
  · exact List.mem_map.2 ⟨_, Table.mem_entries_of_get? hclass, rfl⟩
  · exact h.declared_class file name (SortedSet.contains_iff.1 hcontains)

/-- A restriction lists no more classes than the graph. -/
theorem restricted_size : (g.restricted chosen calls).classes.size ≤ g.classes.size := by
  have hsubset : (g.restricted chosen calls).classes.keys ⊆ g.classes.keys := by
    intro name hname
    rcases List.mem_map.1 hname with ⟨⟨name, file⟩, hmem, rfl⟩
    exact h.restricted_keys (Table.get?_of_mem hmem)
  have hlength := ((Table.nodup_keys _).subperm hsubset).length_le
  simpa [Table.keys, Table.size] using hlength

end Regular

end Graph

end JavaDeps
