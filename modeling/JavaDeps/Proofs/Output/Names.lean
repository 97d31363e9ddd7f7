import Mathlib.Data.List.DropRight
import JavaDeps.Output.Files
import JavaDeps.Proofs.Pages.Numerals

/-!
# Names of output files

The names of the output files are made from one name, in which the extension is replaced wherever it
stands. The file says when these names differ, and when all of them are in one directory.
-/

namespace JavaDeps

namespace Text

variable {old new new' dir text : List Char}

/-- A character of the replaced text comes from the text or from what is put in. -/
theorem mem_replaceFrom {c : Char} {count : Nat} (h : c ∈ replaceFrom old new count text) :
    c ∈ new ∨ c ∈ text := by
  fun_induction replaceFrom old new count text <;> grind

/-- The start of a text stays if nothing is replaced in it, nor over its end. -/
theorem replaceFrom_append_left (h : occursIn old dir = false) (hend : ∀ h, dir.getLast h ∉ old) :
    replaceFrom old new 0 (dir ++ text) = dir ++ replaceFrom old new 0 text := by
  induction dir with
  | nil => rfl
  | cons c dir ih =>
    rw [occursIn, Bool.or_eq_false_iff] at h
    have hstart : ¬ old.isPrefixOf (c :: (dir ++ text)) = true := by
      intro hstart
      rcases List.prefix_or_prefix_of_prefix (List.isPrefixOf_iff_prefix.1 hstart)
        (List.prefix_append (c :: dir) text) with hle | hle
      · exact absurd (List.isPrefixOf_iff_prefix.2 hle) (by simp [h.1])
      · exact hend (by simp) (hle.subset (List.getLast_mem _))
    rw [List.cons_append, replaceFrom, if_neg hstart, ih h.2 (by grind), List.cons_append]

section

variable (hold : old ≠ []) (h : occursIn old dir = true)

include hold h

/-- Where something is replaced first, the start of a text stays only if the new text goes on as the
old one, or the other way round. -/
theorem prefix_of_prefix_replaceFrom (hdir : dir <+: text)
    (hnew : dir <+: replaceFrom old new 0 text) : old <+: new ∨ new <+: old := by
  induction dir generalizing text with
  | nil => exact absurd (List.isEmpty_iff.1 h) hold
  | cons c dir ih =>
    have hlength : old.length ≤ (c :: dir).length := (occursIn_iff.1 h).length_le
    rcases hdir with ⟨after, rfl⟩
    rw [List.cons_append] at hnew
    rw [replaceFrom] at hnew
    have hprefix : c :: dir <+: c :: (dir ++ after) := List.prefix_append _ _
    split at hnew
    · rename_i hstart
      have hle := List.isPrefixOf_iff_prefix.1 hstart
      exact List.prefix_or_prefix_of_prefix
        ((List.prefix_of_prefix_length_le hle hprefix hlength).trans hnew) (List.prefix_append _ _)
    · rename_i hstart
      rw [occursIn, Bool.or_eq_true] at h
      refine ih (h.resolve_left fun h => hstart ?_) (List.prefix_append _ _)
        (List.cons_prefix_cons.1 hnew).2
      exact List.isPrefixOf_iff_prefix.2 ((List.isPrefixOf_iff_prefix.1 h).trans hprefix)

/-- The same of two replacements that give one text. -/
theorem prefix_of_replaceFrom_eq (heq : replaceFrom old new 0 dir = replaceFrom old new' 0 dir) :
    new <+: new' ∨ new' <+: new := by
  induction dir with
  | nil => exact absurd (List.isEmpty_iff.1 h) hold
  | cons c rest ih =>
    rw [replaceFrom, replaceFrom] at heq
    split at heq
    · exact List.prefix_or_prefix_of_prefix (heq ▸ List.prefix_append _ _) (List.prefix_append _ _)
    · rename_i hstart
      rw [occursIn, Bool.or_eq_true] at h
      exact ih (h.resolve_left hstart) (List.cons.inj heq).2

end

end Text

def directory (name : String) : List Char := name.toList.rdropWhile (· != '/')

def OutputFiles.names (files : OutputFiles) : List String :=
  [files.drawing, files.metadata, files.image, files.map, files.page]

def newEndings : List String := ["_metadata.json", ".png", ".map", ".html"]

theorem names_ofName (name : String) : (OutputFiles.ofName name).names =
    name :: newEndings.map (Text.replace name ".dot") := rfl

theorem toList_replace (name new : String) : (Text.replace name ".dot" new).toList =
    Text.replaceFrom ".dot".toList new.toList 0 name.toList :=
  String.toList_ofList

/-- None of the endings starts another one, and they hold no slash. -/
theorem endings_apart : (".dot" :: newEndings).Pairwise
    (fun a b => ¬ (a.toList <+: b.toList ∨ b.toList <+: a.toList) ∧ '/' ∉ b.toList) := by decide

/-- Whether a file is in a directory, not below a further one. -/
def InDirectory (dir : List Char) (file : String) : Prop :=
  ∃ last, file.toList = dir ++ last ∧ '/' ∉ last

/-- The files have different names exactly if the given name holds `.dot`. -/
theorem nodup_names_iff (name : String) :
    (OutputFiles.ofName name).names.Nodup ↔ Text.within ".dot" name = true := by
  rcases List.pairwise_cons.1 endings_apart with ⟨hdot, hnew⟩
  rw [names_ofName]
  refine ⟨fun hnodup => ?_, fun h => List.nodup_cons.2 ⟨fun hmem => ?_, ?_⟩⟩
  · -- Where nothing is replaced, the image has the name of the drawing.
    by_contra h
    refine (List.nodup_cons.1 hnodup).1 (List.mem_map.2 ⟨".png", by decide, String.toList_inj.1 ?_⟩)
    rw [toList_replace, Text.replaceFrom_of_not_occursIn (Bool.not_eq_true _ ▸ h)]
  · rcases List.mem_map.1 hmem with ⟨new, hmem, heq⟩
    refine (hdot new hmem).1
      (Text.prefix_of_prefix_replaceFrom (by decide) h (List.prefix_refl _) ⟨[], ?_⟩)
    rw [List.append_nil, ← toList_replace, heq]
  · refine List.pairwise_map.2 (hnew.imp fun hab heq => ?_)
    rw [← String.toList_inj, toList_replace, toList_replace] at heq
    exact hab.1 (Text.prefix_of_replaceFrom_eq (by decide) h heq)

/-- The files stay in its directory exactly if the directory does not hold `.dot`. -/
theorem names_inDirectory_iff (name : String) :
    (∀ file ∈ (OutputFiles.ofName name).names, InDirectory (directory name) file) ↔
      Text.occursIn ".dot".toList (directory name) = false := by
  have hdot := (List.pairwise_cons.1 endings_apart).1
  have hname : directory name ++ name.toList.rtakeWhile (· != '/') = name.toList :=
    List.rdropWhile_append_rtakeWhile
  rw [names_ofName]
  refine ⟨fun hfiles => ?_, fun h file hmem => ?_⟩
  · by_contra h
    rcases hfiles (Text.replace name ".dot" ".png") (by simp [newEndings]) with ⟨last, hlast, -⟩
    refine (hdot ".png" (by decide)).1
      (Text.prefix_of_prefix_replaceFrom (by decide) (Bool.not_eq_false _ ▸ h) ⟨_, hname⟩ ?_)
    rw [← toList_replace, hlast]
    exact List.prefix_append _ _
  · have hlast : '/' ∉ name.toList.rtakeWhile (· != '/') := fun h => by
      simpa using List.mem_rtakeWhile_imp h
    rcases List.mem_cons.1 hmem with rfl | hmem
    · exact ⟨_, hname.symm, hlast⟩
    · rcases List.mem_map.1 hmem with ⟨new, hnew, rfl⟩
      refine ⟨Text.replaceFrom ".dot".toList new.toList 0 _, ?_,
        fun h => (Text.mem_replaceFrom h).elim (hdot new hnew).2 hlast⟩
      rw [← Text.replaceFrom_append_left h, hname, toList_replace]
      -- The directory ends in a slash, which is not in the extension.
      intro hne
      have hslash : (directory name).getLast hne = '/' := by
        simpa [directory] using List.rdropWhile_last_not (· != '/') name.toList hne
      rw [hslash]
      decide

/-- The output files have different names exactly if the name has the extension in it. They are in
the directory of the drawing exactly if the extension is not in the name of this directory. -/
theorem output_names_iff (name : String) :
    ((OutputFiles.ofName name).names.Nodup ↔ Text.within ".dot" name = true) ∧
      ((∀ file ∈ (OutputFiles.ofName name).names, InDirectory (directory name) file) ↔
        Text.occursIn ".dot".toList (directory name) = false) :=
  ⟨nodup_names_iff name, names_inDirectory_iff name⟩

/-- Without the extension all files have one name. An extension in the name of the directory leads
out of it. -/
theorem output_names_clash :
    (OutputFiles.ofName "graph").names = List.replicate 5 "graph" ∧
      ¬ (OutputFiles.ofName "graph").names.Nodup ∧ directory "a.dot/b.dot" = "a.dot/".toList ∧
      (OutputFiles.ofName "a.dot/b.dot").page = "a.html/b.html" := by decide

end JavaDeps
