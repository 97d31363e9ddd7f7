import JavaDeps.Proofs.Analysis.Deep
import JavaDeps.Proofs.Java.Comments

/-!
# Comments and the graph

The plain analysis looks for declarations, imports and packages in the texts as they are, and for
calls in the cleaned texts. If all texts are tidy, comments do not show in the graph. Otherwise they
can: a class that is only named in a comment counts as declared, and the calls of all files are
resolved with it.
-/

namespace JavaDeps

/-! ## Disks with the same code -/

/-- Two disks list the same files below a directory, in the same order, and the same texts are left
where the comments are deleted. -/
structure Disk.SameCode (d d' : Disk) (root : SourcePath) : Prop where
  files : d'.javaFiles root = d.javaFiles root
  texts : ∀ file ∈ d.javaFiles root,
    (d'.text? file).map Java.withoutComments = (d.text? file).map Java.withoutComments

instance (d d' : Disk) (root : SourcePath) : Decidable (d.SameCode d' root) :=
  decidable_of_iff
    (d'.javaFiles root = d.javaFiles root ∧ ∀ file ∈ d.javaFiles root,
      (d'.text? file).map Java.withoutComments = (d.text? file).map Java.withoutComments)
    ⟨fun h => ⟨h.1, h.2⟩, fun h => ⟨h.files, h.texts⟩⟩

def Disk.Tidy (d : Disk) (root : SourcePath) : Prop := ∀ e ∈ d.sources root, Java.TidyText e.2

instance (d : Disk) (root : SourcePath) : Decidable (d.Tidy root) :=
  inferInstanceAs (Decidable (∀ e ∈ d.sources root, Java.TidyText e.2))

/-! ## Findings in texts with the same code -/

section

variable {text text' : List Char} (htidy : Java.TidyText text) (htidy' : Java.TidyText text')
  (hcode : Java.withoutComments text' = Java.withoutComments text)
include htidy htidy' hcode

/-- Declarations are found in the code, so comments do not matter. -/
theorem declarationFindings_code (file : SourcePath) :
    declarationFindings file text' = declarationFindings file text := by
  rcases Java.clauses_of_tidy htidy with ⟨htypes, -, hpackage⟩
  rcases Java.clauses_of_tidy htidy' with ⟨htypes', -, hpackage'⟩
  rw [declarationFindings, declarationFindings, htypes, hpackage, htypes', hpackage', hcode]

/-- Calls are found in the code, so comments do not matter. -/
theorem callFindings_code (g : Graph) (file : SourcePath) :
    callFindings g file text' = callFindings g file text := by
  rcases Java.clauses_of_tidy htidy with ⟨-, himports, -⟩
  rcases Java.clauses_of_tidy htidy' with ⟨-, himports', -⟩
  rw [callFindings, callFindings, himports, himports', Java.clean_of_tidy htidy,
    Java.clean_of_tidy htidy', hcode]

end

theorem Disk.flatMap_readable (d : Disk) (files : List SourcePath)
    (f : SourcePath → List Char → List Finding) :
    (d.readable files).flatMap (fun e => f e.1 e.2) =
      files.flatMap (fun file => (d.text? file).elim [] (f file)) := by
  induction files with
  | nil => rfl
  | cons file rest ih =>
    rw [readable_cons, List.flatMap_cons, ← ih]
    cases d.text? file <;> rfl

section

variable {d d' : Disk} {root : SourcePath} (hsame : d.SameCode d' root) (htidy : d.Tidy root)
  (htidy' : d'.Tidy root)
include hsame htidy htidy'

/-- What depends only on the code of each text is found in both disks. -/
theorem flatMap_sources_code {f : SourcePath → List Char → List Finding}
    (hf : ∀ file text text', Java.TidyText text → Java.TidyText text' →
      Java.withoutComments text' = Java.withoutComments text → f file text' = f file text) :
    (d'.sources root).flatMap (fun e => f e.1 e.2) =
      (d.sources root).flatMap (fun e => f e.1 e.2) := by
  rw [Disk.sources, Disk.sources, Disk.flatMap_readable, Disk.flatMap_readable, hsame.files]
  refine List.flatMap_congr (fun file hfile => ?_)
  have hfile' : file ∈ d'.javaFiles root := hsame.files.symm ▸ hfile
  have hcode := hsame.texts file hfile
  cases htext : d.text? file with
  | none =>
    rw [htext] at hcode
    rw [Option.map_eq_none_iff.1 hcode]
  | some text =>
    rw [htext] at hcode
    rcases Option.map_eq_some_iff.1 hcode with ⟨text', htext', hcode⟩
    rw [htext']
    exact hf file text text' (htidy (file, text) (Disk.mem_readable.2 ⟨hfile, htext⟩))
      (htidy' (file, text') (Disk.mem_readable.2 ⟨hfile', htext'⟩)) hcode

/-- Texts with the same code have the same graph. -/
theorem analyzed_code :
    (Graph.ofRoot root).analyzed d' = (Graph.ofRoot root).analyzed d := by
  have hdeclared : (Graph.ofRoot root).foundDeclarations d' =
      (Graph.ofRoot root).foundDeclarations d :=
    flatMap_sources_code hsame htidy htidy'
      (fun file _ _ h h' hcode => declarationFindings_code h h' hcode file)
  -- Calls are resolved in the graph of the first phase, which is the same for both by then.
  have hcalls : ∀ g : Graph, g.root = root → g.foundCalls d' = g.foundCalls d := by
    rintro g rfl
    exact flatMap_sources_code hsame htidy htidy'
      (fun file _ _ h h' hcode => callFindings_code h h' hcode g file)
  rw [Graph.analyzed, Graph.analyzed, hdeclared, hcalls _ (Graph.root_recordAll _ _)]

end

/-- Comments do not show in the graph of a tidy project. If two directories hold the same files
whose texts differ in comments only, and every text is tidy, then the plain analysis succeeds on
both and finds the same classes, the same names for each file, the same imports and the same calls.
-/
theorem comments_unseen (root : String) (s s' : Session)
    (hsame : s.disk.SameCode s'.disk (SourcePath.ofText root))
    (htidy : s.disk.Tidy (SourcePath.ofText root))
    (htidy' : s'.disk.Tidy (SourcePath.ofText root)) :
    ∃ t t', (do openProject .plain root; analyze : Action Unit) s = (.ok (), t) ∧
      (do openProject .plain root; analyze : Action Unit) s' = (.ok (), t') ∧
      t'.project.graph = t.project.graph := by
  rcases analyze_plain_run root s with ⟨t, hrun, -, hgraph⟩
  rcases analyze_plain_run root s' with ⟨t', hrun', -, hgraph'⟩
  exact ⟨t, t', hrun, hrun', by rw [hgraph, hgraph', analyzed_code hsame htidy htidy']⟩

/-! ## Comments that are not seen -/

def bareFiles : Disk :=
  ((default : Disk).put (SourcePath.ofText "A.java")
    (.text " class A \x7b char c = '\"'; int x = B.m(); \n\x7d")).put
    (SourcePath.ofText "B.java") (.text "package p; \nclass B \x7b \x7d")

/-- The same files with a comment on the class, a call that is commented out and a remark. -/
def remarkedFiles : Disk :=
  ((default : Disk).put (SourcePath.ofText "A.java")
    (.text "/* of\n http://b\n */ class A \x7b char c = '\"'; int x = B.m(); // \"B.n()\n\x7d")).put
    (SourcePath.ofText "B.java") (.text "package p; // the callee\nclass B \x7b \x7d")

/-- Both pairs of files are tidy and have the same code, in which there is one call. -/
theorem bareFiles_remarkedFiles :
    bareFiles.SameCode remarkedFiles (SourcePath.ofText ".") ∧
      bareFiles.Tidy (SourcePath.ofText ".") ∧ remarkedFiles.Tidy (SourcePath.ofText ".") ∧
      ((Graph.ofRoot (SourcePath.ofText ".")).analyzed bareFiles).names
        ⟨"", ["A.java"]⟩ ⟨"", ["B.java"]⟩ = ["m"] := by decide +kernel

/-- With the comments the one call is found, and not the one that is commented out. -/
theorem comments_unseen_remarkedFiles :
    bareFiles.SameCode remarkedFiles (SourcePath.ofText ".") ∧
      bareFiles.Tidy (SourcePath.ofText ".") ∧ remarkedFiles.Tidy (SourcePath.ofText ".") ∧
      ∃ t, (do openProject .plain "."; analyze : Action Unit) (Session.ofDisk remarkedFiles) =
          (.ok (), t) ∧
        t.project.graph.names ⟨"", ["A.java"]⟩ ⟨"", ["B.java"]⟩ = ["m"] := by
  rcases bareFiles_remarkedFiles with ⟨hsame, htidy, htidy', hnames⟩
  rcases comments_unseen "." (Session.ofDisk bareFiles) (Session.ofDisk remarkedFiles) hsame htidy
    htidy' with ⟨t, t', hrun, hrun', hgraph⟩
  refine ⟨hsame, htidy, htidy', t', hrun', ?_⟩
  rw [hgraph, graph_of_analyze_plain hrun]
  exact hnames

/-! ## A comment that is seen -/

/-- Three files, of which the first calls the second; the third one is given. -/
def threeFiles (third : String) : Disk :=
  (((default : Disk).put (SourcePath.ofText "A.java")
    (.text "class A \x7b int x = B.m(); \x7d")).put
    (SourcePath.ofText "B.java") (.text "class B \x7b \x7d")).put
    (SourcePath.ofText "C.java") (.text third)

/-- A class that is named in a comment takes the calls of another file from the class of this name.
-/
theorem comment_redirects_call :
    (threeFiles "\nclass C \x7b \x7d").SameCode (threeFiles "// class B\nclass C \x7b \x7d")
        (SourcePath.ofText ".") ∧
      ∃ t t', (do openProject .plain "."; analyze : Action Unit)
          (Session.ofDisk (threeFiles "\nclass C \x7b \x7d")) = (.ok (), t) ∧
        (do openProject .plain "."; analyze : Action Unit)
          (Session.ofDisk (threeFiles "// class B\nclass C \x7b \x7d")) = (.ok (), t') ∧
        t.project.graph.names ⟨"", ["A.java"]⟩ ⟨"", ["B.java"]⟩ = ["m"] ∧
        t'.project.graph.names ⟨"", ["A.java"]⟩ ⟨"", ["B.java"]⟩ = [] ∧
        t'.project.graph.names ⟨"", ["A.java"]⟩ ⟨"", ["C.java"]⟩ = ["m"] := by
  rcases analyze_plain_run "." (Session.ofDisk (threeFiles "\nclass C \x7b \x7d")) with
    ⟨t, hrun, -, hgraph⟩
  rcases analyze_plain_run "." (Session.ofDisk (threeFiles "// class B\nclass C \x7b \x7d")) with
    ⟨t', hrun', -, hgraph'⟩
  refine ⟨by decide +kernel, t, t', hrun, hrun', ?_⟩
  rw [hgraph, hgraph']
  decide +kernel

end JavaDeps
