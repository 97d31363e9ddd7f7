import JavaDeps.Proofs.Java.Signatures
import JavaDeps.Proofs.SortedSet
import Mathlib.Data.List.TakeWhile

/-!
# Bodies that are found

A method is found by its name and its head, and its body is taken up to the first closing brace in
it. So a body is taken whole exactly if there are no blocks in it.
-/

namespace JavaDeps.Java

open Pattern

/-! ## Running the patterns -/

/-- A body is read up to its first closing brace. -/
theorem run_bodyRest {bound : Nat} (hbound : 2 ≤ bound) {c : Cursor} (hmarks : c.marks = [])
    {text rest : List Char} (hafter : c.after = text ++ '\x7d' :: rest)
    (htext : ∀ x ∈ text, (x != '\x7d') = true) :
    ∃ e, run bound false (chain bodyRest) .found c = .found e ∧ e.capture? 1 = some text := by
  let stop := (c.openGroup 1).forward text ('\x7d' :: rest)
  have hclosed : (stop.closeGroup 1).after = '\x7d' :: rest := after_closeGroup stop 1
  have hend : ∃ e, run bound false (char '\x7d') .found (stop.closeGroup 1) = .found e ∧
      e.marks = (stop.closeGroup 1).marks := by
    simp only [run, char, hclosed]
    exact ⟨_, rfl, rfl⟩
  rcases hend with ⟨e, he, hcaptured⟩
  -- No pair of braces can begin before the first closing brace, so all of them are passed over.
  have hpairs : ∀ k, run bound true (chain [char '\x7b', many (· != '\x7d'), char '\x7d',
      many (· != '\x7d')]) k stop = .lost stop.marks := fun k => rfl
  refine ⟨e, run_many_longest bound false (c := c.openGroup 1) hafter htext (by simp) ?_, ?_⟩
  · exact (run_rep_skip false hbound hpairs).trans he
  · rw [Cursor.capture?, hcaptured]
    simp [stop, Cursor.openGroup, Cursor.closeGroup, Cursor.forward, Marks.mark, Capture.text?,
      hmarks, hafter]

/-- What stands before a body is read first. -/
theorem run_before_body {ps : List Pattern} (hps : ∀ p ∈ ps, p.isPlain = true) {bound : Nat}
    {c e : Cursor} (hmarks : c.marks = [])
    (h : run bound false (chain (ps ++ bodyRest)) .found c = .found e) :
    ∃ text rest, c.after = text ++ rest ∧ (chain ps).Reads text ∧
      run bound false (chain bodyRest) .found (c.forward text rest) = .found e := by
  have hbody : (chain bodyRest).straight? 0 = some 1 := rfl
  have hanswer := run_plain (isPlain_chain hps) bound false (hmarks ▸ calm_run hbody bound)
  rw [← run_chain_append, h] at hanswer
  exact hanswer

/-! ## Heads of methods -/

def Typed (text : List Char) : Prop :=
  ∃ front space types gap, text = front ++ (space ++ (types ++ gap)) ∧
    ((∀ c ∈ space, Text.isBlank c = true) ∧ space ≠ []) ∧
    ((∀ c ∈ types, isSignatureChar c = true) ∧ types ≠ []) ∧
    (∀ c ∈ gap, Text.isBlank c = true) ∧ gap ≠ []

/-- A parameter list ends, and nothing but blanks follows it. -/
def ClosesPlain (header : List Char) : Prop :=
  ∃ params gap, header = params ++ ')' :: gap ∧ ∀ c ∈ gap, Text.isBlank c = true

/-- A parameter list ends, and a list of exceptions follows it. -/
def ClosesThrowing (header : List Char) : Prop :=
  ∃ params gap clause, header = params ++ ')' :: (gap ++ ("throws".toList ++ clause)) ∧
    ∀ c ∈ gap, Text.isBlank c = true

theorem all_bne {x : Char} {text : List Char} : (∀ c ∈ text, (c != x) = true) ↔ x ∉ text := by
  simp only [bne_iff_ne]
  exact ⟨fun h hx => h x hx rfl, fun h c hc heq => h (heq ▸ hc)⟩

theorem not_mem_of_blank {x : Char} (hx : Text.isBlank x = false) {text : List Char}
    (h : ∀ c ∈ text, Text.isBlank c = true) : x ∉ text := by
  intro hmem
  rw [h x hmem] at hx
  cases hx

theorem Typed.append {text : List Char} (h : Typed text) (before : List Char) :
    Typed (before ++ text) := by
  rcases h with ⟨front, space, types, gap, rfl, hspace, htypes, hgap⟩
  exact ⟨before ++ front, space, types, gap, by simp, hspace, htypes, hgap⟩

/-- Behind a type there is a blank. -/
theorem Typed.last_blank {text : List Char} (h : Typed text) :
    ∃ c, text.getLast? = some c ∧ Text.isBlank c = true := by
  rcases h with ⟨front, space, types, gap, rfl, -, -, hgap, hne⟩
  refine ⟨gap.getLast hne, ?_, hgap _ (List.getLast_mem hne)⟩
  rw [← List.append_assoc, ← List.append_assoc, List.getLast?_append,
    List.getLast?_eq_some_getLast hne]
  rfl

/-- A signature ends with types and blanks. -/
theorem reads_signature {text : List Char} (h : (chain signature).Reads text) : Typed text := by
  rcases reads_chain_cons.1 h with ⟨override, _, rfl, -, h⟩
  rcases reads_chain_cons.1 h with ⟨modifier, _, rfl, -, h⟩
  rcases reads_chain_cons.1 h with ⟨space, _, rfl, hspace, h⟩
  rcases reads_chain_cons.1 h with ⟨types, gap, rfl, htypes, hgap⟩
  exact ⟨override ++ modifier, space, types, gap, by simp, reads_many1.1 hspace,
    reads_many1.1 htypes, reads_many1.1 hgap⟩

/-- A parameter list with blanks around it, up to its last parenthesis. -/
theorem reads_parameters {text : List Char} : (chain parameters).Reads text ↔
    ∃ gap params gap', text = gap ++ '(' :: (params ++ ')' :: gap') ∧
      (∀ c ∈ gap, Text.isBlank c = true) ∧ '\x7b' ∉ params ∧ ∀ c ∈ gap', Text.isBlank c = true := by
  constructor
  · intro h
    rcases reads_chain_cons.1 h with ⟨gap, _, rfl, hgap, h⟩
    rcases reads_chain_cons.1 h with ⟨_, _, rfl, hopen, h⟩
    rcases reads_chain_cons.1 h with ⟨params, _, rfl, hparams, h⟩
    rcases reads_chain_cons.1 h with ⟨_, gap', rfl, hclose, hgap'⟩
    rw [reads_char.1 hopen, reads_char.1 hclose]
    exact ⟨gap, params, gap', by simp, reads_many.1 hgap, all_bne.1 (reads_many.1 hparams),
      reads_many.1 hgap'⟩
  · rintro ⟨gap, params, gap', rfl, hgap, hparams, hgap'⟩
    refine reads_chain_cons.2 ⟨gap, _, rfl, reads_many.2 hgap, ?_⟩
    refine reads_chain_cons.2 ⟨['('], _, rfl, reads_char.2 rfl, ?_⟩
    refine reads_chain_cons.2 ⟨params, _, rfl, reads_many.2 (all_bne.2 hparams), ?_⟩
    exact reads_chain_cons.2 ⟨[')'], _, rfl, reads_char.2 rfl, reads_many.2 hgap'⟩

/-- A list of exceptions begins with its word, or there is none. -/
theorem reads_throws {text : List Char} (h : (chain throwsClause).Reads text) :
    (∀ c ∈ text, Text.isBlank c = true) ∨
      ∃ clause, text = "throws".toList ++ clause ∧ '\x7b' ∉ text := by
  rcases reads_chain_cons.1 h with ⟨clause, gap, rfl, hclause, hgap⟩
  have hgap' := reads_many.1 hgap
  rcases reads_optional.1 hclause with rfl | hclause
  · exact Or.inl hgap'
  · rcases reads_chain_append.1 hclause with ⟨word, exceptions, rfl, hword, hexceptions⟩
    rw [reads_chain_chars.1 hword]
    refine Or.inr ⟨exceptions ++ gap, by simp, ?_⟩
    have hunopened := all_bne.1 (reads_many.1 hexceptions)
    have hblank := not_mem_of_blank (x := '\x7b') rfl hgap'
    simp [hunopened, hblank]

/-- What is read behind the name of a method up to its body. -/
theorem reads_head {text : List Char}
    (h : (chain (parameters ++ (throwsClause ++ [char '\x7b']))).Reads text) :
    ∃ gap header, text = gap ++ '(' :: (header ++ ['\x7b']) ∧
      (∀ c ∈ gap, Text.isBlank c = true) ∧ '\x7b' ∉ header ∧
      (ClosesPlain header ∨ ClosesThrowing header) := by
  rcases reads_chain_append.1 h with ⟨_, _, rfl, hparams, h⟩
  rcases reads_chain_append.1 h with ⟨clause, _, rfl, hclause, hopen⟩
  rcases reads_parameters.1 hparams with ⟨gap, params, gap', rfl, hgap, hunopened, hgap'⟩
  rw [reads_char.1 hopen]
  refine ⟨gap, params ++ ')' :: (gap' ++ clause), by simp, hgap, ?_, ?_⟩
  · have hblank := not_mem_of_blank (x := '\x7b') rfl hgap'
    have hclause' : '\x7b' ∉ clause := by
      rcases reads_throws hclause with hblank' | ⟨-, -, hclause⟩
      · exact not_mem_of_blank rfl hblank'
      · exact hclause
    simp [hunopened, hblank, hclause']
  · rcases reads_throws hclause with hblank | ⟨exceptions, rfl, -⟩
    · refine Or.inl ⟨params, gap' ++ clause, rfl, fun c hc => ?_⟩
      exact (List.mem_append.1 hc).elim (hgap' c) (hblank c)
    · exact Or.inr ⟨params, gap', exceptions, rfl, hgap'⟩

/-- A head without exceptions, up to the brace that opens the body. -/
theorem reads_plainHead {text : List Char}
    (h : (chain (parameters ++ [char '\x7b'])).Reads text) :
    ∃ gap header, text = gap ++ '(' :: (header ++ ['\x7b']) ∧
      (∀ c ∈ gap, Text.isBlank c = true) ∧ '\x7b' ∉ header ∧ ClosesPlain header := by
  rcases reads_chain_append.1 h with ⟨_, _, rfl, hparams, hopen⟩
  rcases reads_parameters.1 hparams with ⟨gap, params, gap', rfl, hgap, hunopened, hgap'⟩
  rw [reads_char.1 hopen]
  have hblank := not_mem_of_blank (x := '\x7b') rfl hgap'
  exact ⟨gap, params ++ ')' :: gap', by simp, hgap, by simp [hunopened, hblank], params, gap', rfl,
    hgap'⟩

/-! ## Where a name is found -/

theorem forall_mem_named {P : Pattern → Prop} (hchar : ∀ c, P (char c)) {front more : List Pattern}
    (hfront : ∀ p ∈ front, P p) (hmore : ∀ p ∈ more, P p) (name : List Char) :
    ∀ p ∈ front ++ (name.map char ++ more), P p := by
  intro p hp
  rcases List.mem_append.1 hp with hp | hp
  · exact hfront p hp
  rcases List.mem_append.1 hp with hp | hp
  · rcases List.mem_map.1 hp with ⟨c, -, rfl⟩
    exact hchar c
  · exact hmore p hp

/-- What is found has the name between its front and its head, and its body comes next. -/
theorem head_of_run (front head : List Pattern) (hfront : ∀ p ∈ front, p.isPlain = true)
    (hhead : ∀ p ∈ head, p.isPlain = true) {name : List Char} {bound : Nat} {c e : Cursor}
    (hmarks : c.marks = [])
    (h : run bound false (chain (front ++ (name.map char ++ (head ++ bodyRest)))) .found c =
      .found e) :
    ∃ before text rest, c.after = before ++ (name ++ (text ++ rest)) ∧ (chain front).Reads before ∧
      (chain head).Reads text ∧ ∃ d : Cursor, d.marks = [] ∧ d.after = rest ∧
        run bound false (chain bodyRest) .found d = .found e := by
  have hplain : ∀ p ∈ front ++ (name.map char ++ head), p.isPlain = true :=
    forall_mem_named (fun _ => rfl) hfront hhead name
  rw [← List.append_assoc (name.map char), ← List.append_assoc front] at h
  rcases run_before_body hplain hmarks h with ⟨text, rest, hafter, hreads, hrun⟩
  rcases reads_chain_append.1 hreads with ⟨before, _, rfl, hbefore, hreads⟩
  rcases reads_chain_append.1 hreads with ⟨_, text, rfl, hname, htext⟩
  rw [reads_chain_chars.1 hname] at hafter hrun
  exact ⟨before, text, rest, by simpa using hafter, hbefore, htext, c.forward _ rest, hmarks, rfl,
    hrun⟩

section

variable {bound : Nat} (hbound : 2 ≤ bound) {c : Cursor} (hmarks : c.marks = [])

include hbound hmarks

/-- A body is found behind what is read before its opening brace. -/
theorem run_opened {front : List Pattern} (hfront : (chain front).isSimple = true)
    {text body rest : List Char} (hreads : (chain front).Reads text)
    (hbody : ∀ x ∈ body, (x != '\x7d') = true)
    (hafter : c.after = text ++ '\x7b' :: (body ++ '\x7d' :: rest)) :
    ∃ e, run bound false (chain (front ++ (char '\x7b' :: bodyRest))) .found c = .found e := by
  have hstraight : (chain (char '\x7b' :: bodyRest)).straight? 0 = some 1 := rfl
  have hopen : ∃ e, run bound false (chain (char '\x7b' :: bodyRest)) .found
      (c.forward text ('\x7b' :: (body ++ '\x7d' :: rest))) = .found e := by
    rcases run_bodyRest hbound (c := ⟨'\x7b' :: (text.reverse ++ c.before), body ++ '\x7d' :: rest,
      c.pos + text.length + 1, c.marks⟩) hmarks rfl hbody with ⟨e, he, -⟩
    exact ⟨e, he⟩
  rcases hopen with ⟨e, he⟩
  simp only [run_chain_append]
  exact run_simple_found bound false hfront (hmarks ▸ calm_run hstraight bound) hafter hreads he

/-- A body is found behind the end of a parameter list, also if exceptions are thrown. -/
theorem run_after_parameters {clause body rest : List Char}
    (hclause : clause = [] ∨ ∃ exceptions, clause = "throws".toList ++ exceptions ∧
      '\x7b' ∉ exceptions)
    (hbody : ∀ x ∈ body, (x != '\x7d') = true)
    (hafter : c.after = clause ++ '\x7b' :: (body ++ '\x7d' :: rest)) :
    ∃ e, run bound false (chain (throwsClause ++ (char '\x7b' :: bodyRest))) .found c =
      .found e := by
  have hblanks : (chain [blanks]).Reads [] := reads_many.2 (by simp)
  rcases hclause with rfl | ⟨exceptions, rfl, hunopened⟩
  · rcases run_opened hbound hmarks rfl hblanks hbody hafter with ⟨e, he⟩
    exact run_optional_skip false hbound _ _ he
  · have hstraight : (chain (blanks :: char '\x7b' :: bodyRest)).straight? 0 = some 1 := rfl
    have hreads : (chain ("throws".toList.map char ++ [many (· != '\x7b')])).Reads
        ("throws".toList ++ exceptions) :=
      reads_chain_append.2 ⟨_, _, rfl, reads_chain_chars.2 rfl, reads_many.2 (all_bne.2 hunopened)⟩
    rcases run_opened hbound (c := c.forward ("throws".toList ++ exceptions)
      ('\x7b' :: (body ++ '\x7d' :: rest))) hmarks rfl hblanks hbody rfl with ⟨e, he⟩
    exact run_optional_take false hbound rfl (hmarks ▸ calm_run hstraight bound) hafter hreads he

omit hmarks in
/-- What may stand in front of a declaration is not needed. -/
theorem run_declaration_skip {name : List Char} {e : Cursor}
    (h : run bound false (chain ([blanks1, many1 isSignatureChar, blanks1] ++ (name.map char ++
      (parameters ++ (throwsClause ++ (char '\x7b' :: bodyRest)))))) .found c = .found e) :
    ∃ e', run bound false (declaration name) .found c = .found e' := by
  rcases run_optional_skip false hbound (char 'p')
    (oneOf [literal "ublic", literal "rivate", literal "rotected"]) h with ⟨e₁, he₁⟩
  exact run_optional_skip false hbound (char '@')
    (chain ("Override".toList.map char ++ [blanks1])) he₁

/-- A declaration is found where types stand before the name and a head behind it. -/
theorem run_declaration {name text clause body rest : List Char}
    (hreads : (chain ([blanks1, many1 isSignatureChar, blanks1] ++
      (name.map char ++ parameters))).Reads text)
    (hclause : clause = [] ∨ ∃ exceptions, clause = "throws".toList ++ exceptions ∧
      '\x7b' ∉ exceptions)
    (hbody : ∀ x ∈ body, (x != '\x7d') = true)
    (hafter : c.after = text ++ (clause ++ '\x7b' :: (body ++ '\x7d' :: rest))) :
    ∃ e, run bound false (declaration name) .found c = .found e := by
  have hstraight : (chain (throwsClause ++ (char '\x7b' :: bodyRest))).straight? 0 = some 1 := rfl
  -- The name is read in one go with the types and parameters around it.
  have hsimple : (chain ([blanks1, many1 isSignatureChar, blanks1] ++
      (name.map char ++ parameters))).isSimple = true :=
    isSimple_chain (forall_mem_named (fun _ => rfl) (by decide) (by decide) name)
  rcases run_after_parameters hbound (c := c.forward text _) hmarks hclause hbody rfl with ⟨e, he⟩
  rcases run_simple_found bound false hsimple (hmarks ▸ calm_run hstraight bound) hafter hreads he
    with ⟨e', he'⟩
  rw [← run_chain_append, List.append_assoc, List.append_assoc] at he'
  exact run_declaration_skip hbound he'

end

/-! ## Places of a name -/

def isIdentifierChar (c : Char) : Bool := Text.isWordChar c || c == '$'

def callsNext (name text : List Char) : Bool :=
  name.isPrefixOf text && ((text.drop name.length).dropWhile Text.isBlank).head? == some '('

/-- The places of a text at which a name and an opening parenthesis come next. -/
def callPlaces (name text : List Char) : List Nat :=
  (List.range (text.length + 1)).filter (fun n => callsNext name (text.drop n))

/-- Those of them at which the name is not the end of a longer one. -/
def ownPlaces (name text : List Char) : List Nat :=
  (callPlaces name text).filter (fun n => !(text.take n).getLast?.any isIdentifierChar)

theorem not_isIdentifierChar_of_isBlank {c : Char} (h : Text.isBlank c = true) :
    isIdentifierChar c = false := by
  -- There are few blanks, and the letters are a table: the blanks are gone through.
  have hcodes : ∀ n ∈ List.range' 9 5 ++ List.range' 28 5 ++ List.range' 0x2000 11 ++
      [0x85, 0xA0, 0x1680, 0x2028, 0x2029, 0x202F, 0x205F, 0x3000],
      isIdentifierChar (Char.ofNat n) = false := by
    decide +kernel
  rw [← Char.ofNat_toNat c]
  refine hcodes c.toNat ?_
  simp only [Text.isBlank] at h
  simp only [List.mem_append, List.mem_range'_1, List.mem_cons]
  split at h <;> simp only [Bool.or_eq_true, Bool.and_eq_true, beq_iff_eq,
    decide_eq_true_eq] at h <;>
    omega

/-- A name in front of a parenthesis is one of its places. -/
theorem mem_callPlaces (name front rest : List Char) {gap : List Char}
    (hgap : ∀ x ∈ gap, Text.isBlank x = true) :
    front.length ∈ callPlaces name (front ++ (name ++ (gap ++ '(' :: rest))) := by
  refine List.mem_filter.2 ⟨List.mem_range.2 ?_, ?_⟩
  · simp only [List.length_append]
    omega
  · have hparen : Text.isBlank '(' = false := by decide
    simp [callsNext, List.dropWhile_append_of_pos hgap, hparen]

theorem mem_ownPlaces (name rest : List Char) {front gap : List Char} (hfront : Typed front)
    (hgap : ∀ x ∈ gap, Text.isBlank x = true) :
    front.length ∈ ownPlaces name (front ++ (name ++ (gap ++ '(' :: rest))) := by
  rcases hfront.last_blank with ⟨c, hlast, hblank⟩
  refine List.mem_filter.2 ⟨mem_callPlaces name front rest hgap, ?_⟩
  simp [hlast, not_isIdentifierChar_of_isBlank hblank]

/-! ## Texts with a method -/

/-- Whether every closing brace of a text closes a brace that was opened before it, and all are
closed in the end. The number counts the braces that are open. -/
def isBalanced : Nat → List Char → Bool
  | depth, [] => depth == 0
  | depth, c :: rest =>
    if c == '\x7b' then isBalanced (depth + 1) rest
    else if c == '\x7d' then depth != 0 && isBalanced (depth - 1) rest
    else isBalanced depth rest

/-- In a balanced text every brace that is opened is closed. -/
theorem count_of_isBalanced {depth : Nat} {text : List Char} (h : isBalanced depth text = true) :
    text.count '\x7d' = text.count '\x7b' + depth := by
  fun_induction isBalanced depth text with
  | case1 depth => simpa using (beq_iff_eq.1 h).symm
  | case2 depth c rest hopen ih =>
    have hrest := ih h
    rw [beq_iff_eq.1 hopen, List.count_cons_of_ne (by decide), List.count_cons_self]
    omega
  | case3 depth c rest hopen hclose ih =>
    rw [Bool.and_eq_true, bne_iff_ne] at h
    have hrest := ih h.2
    rw [beq_iff_eq.1 hclose, List.count_cons_self, List.count_cons_of_ne (by decide)]
    omega
  | case4 depth c rest hopen hclose ih =>
    have hrest := ih h
    rw [List.count_cons_of_ne (by simpa using hclose), List.count_cons_of_ne (by simpa using hopen)]
    exact hrest

/-- A text around a method: what stands before its name, the name, what stands between it and the
parameter list, the rest of the head up to the body, the body and what stands after it. -/
structure MethodParts where
  before : List Char
  name : String
  gap : List Char
  header : List Char
  body : List Char
  after : List Char

def MethodParts.text (m : MethodParts) : List Char :=
  m.before ++
    (m.name.toList ++ (m.gap ++ '(' :: (m.header ++ '\x7b' :: (m.body ++ '\x7d' :: m.after))))

/-- A text with a method whose name stands for itself and is not called elsewhere, and whose body is
balanced. -/
structure MethodText extends MethodParts where
  name_ordinary : IsOrdinaryName name
  gap_blank : ∀ c ∈ gap, Text.isBlank c = true
  header_unopened : '\x7b' ∉ header
  body_balanced : isBalanced 0 body = true
  own_place : ownPlaces name.toList toMethodParts.text = [before.length]

namespace MethodText

def reached (m : MethodText) : List Char := m.body.takeWhile (· != '\x7d')

def Declared (m : MethodText) : Prop :=
  Typed m.before ∧ (ClosesPlain m.header ∨ ClosesThrowing m.header)

/-- Nowhere else do the characters of the name stand before an opening parenthesis, not even as the
end of a longer name. -/
def Alone (m : MethodText) : Prop := callPlaces m.name.toList m.text = [m.before.length]

/-- The head of the method is one that is looked for. -/
def Recognised (m : MethodText) : Prop := m.Declared ∨ m.Alone ∧ ClosesPlain m.header

variable (m : MethodText)

/-- All of the body is read exactly if no brace is opened in it. -/
theorem reached_eq_body_iff : m.reached = m.body ↔ '\x7b' ∉ m.body := by
  have hcount := count_of_isBalanced m.body_balanced
  have hbraces : '\x7d' ∉ m.body ↔ '\x7b' ∉ m.body := by
    rw [← List.count_eq_zero, ← List.count_eq_zero]
    omega
  rw [← hbraces, reached, ← all_bne]
  exact List.takeWhile_eq_self_iff

theorem exists_reached_append :
    ∃ rest, m.body ++ '\x7d' :: m.after = m.reached ++ '\x7d' :: rest := by
  have hbody : m.reached ++ m.body.dropWhile (· != '\x7d') = m.body :=
    List.takeWhile_append_dropWhile
  cases hdrop : m.body.dropWhile (· != '\x7d') with
  | nil =>
    rw [hdrop, List.append_nil] at hbody
    exact ⟨m.after, by rw [hbody]⟩
  | cons x tail =>
    -- What was dropped starts with the closing brace of a block.
    have hx := List.head?_dropWhile_not (· != '\x7d') m.body
    rw [hdrop] at hx hbody
    have hx' : x = '\x7d' := by simpa using hx
    exact ⟨tail ++ '\x7d' :: m.after, by rw [← hbody, hx']; simp⟩

/-- What is read of a body ends before the first closing brace. -/
theorem reached_unclosed : ∀ x ∈ m.reached, (x != '\x7d') = true :=
  fun _ hx => List.mem_takeWhile_imp (p := (· != '\x7d')) hx

variable {m}

/-- Where the name is found at the place of the method, so is its body. -/
theorem capture_of_place {front gap header rest : List Char}
    (hgap : ∀ x ∈ gap, Text.isBlank x = true)
    (hheader : '\x7b' ∉ header)
    (htext : m.text = front ++ (m.name.toList ++ (gap ++ '(' :: (header ++ '\x7b' :: rest))))
    (hplace : front.length = m.before.length) {bound : Nat} (hbound : 2 ≤ bound) {d e : Cursor}
    (hmarks : d.marks = []) (hafter : d.after = rest)
    (hrun : run bound false (chain bodyRest) .found d = .found e) :
    front = m.before ∧ header = m.header ∧ e.capture? 1 = some m.reached := by
  -- The gap ends at the parenthesis and the header at the brace, so the two divisions are the same.
  rcases List.append_inj htext hplace.symm with ⟨rfl, hname⟩
  have hparen : Text.isBlank '(' = false := by decide
  rcases run_unique (List.append_cancel_left hname) m.gap_blank hgap (test_of_head?_cons hparen)
    (test_of_head?_cons hparen) with ⟨-, hrest⟩
  rcases run_unique (List.cons.inj hrest).2 (all_bne.2 m.header_unopened) (all_bne.2 hheader)
    (test_of_head?_cons (by decide)) (test_of_head?_cons (by decide)) with ⟨rfl, hbody⟩
  rcases m.exists_reached_append with ⟨rest', hreached⟩
  have hafter' : d.after = m.reached ++ '\x7d' :: rest' := by
    rw [hafter, ← (List.cons.inj hbody).2, hreached]
  rcases run_bodyRest hbound hmarks hafter' m.reached_unclosed with ⟨e', he', hcapture⟩
  rw [hrun] at he'
  cases he'
  exact ⟨rfl, rfl, hcapture⟩

/-- A declaration that is found is that of the method. -/
theorem of_find?_declaration {f : Found}
    (h : (declaration m.name.toList).find? m.text = some f) :
    m.Declared ∧ f.stop.capture? 1 = some m.reached := by
  rcases run_of_find? h with ⟨skipped, rest, htext, hrun⟩
  rcases head_of_run signature (parameters ++ (throwsClause ++ [char '\x7b'])) (by decide)
    (by decide) rfl hrun with ⟨front, _, rest', hrest, hfront, hhead, d, hmarks, hafter, hbody⟩
  rcases reads_head hhead with ⟨gap, header, rfl, hgap, hunopened, hcloses⟩
  have htyped := (reads_signature hfront).append skipped
  have htext' : m.text = (skipped ++ front) ++
      (m.name.toList ++ (gap ++ '(' :: (header ++ '\x7b' :: rest'))) := by
    rw [htext, show rest = _ from hrest]
    simp
  -- The name follows a blank, so it is no end of a longer one.
  have hplace : (skipped ++ front).length = m.before.length := by
    have hmem := mem_ownPlaces m.name.toList (header ++ '\x7b' :: rest') htyped hgap
    rw [← htext', m.own_place] at hmem
    exact List.mem_singleton.1 hmem
  rcases capture_of_place hgap hunopened htext' hplace (Nat.le_add_left 2 _) hmarks
    hafter hbody with
    ⟨hbefore, hheader, hcapture⟩
  rw [hbefore] at htyped
  rw [hheader] at hcloses
  exact ⟨⟨htyped, hcloses⟩, hcapture⟩

/-- Where the name stands before no other parenthesis, what is found is the method. -/
theorem of_find?_plainDeclaration (halone : m.Alone) {f : Found}
    (h : (plainDeclaration m.name.toList).find? m.text = some f) :
    ClosesPlain m.header ∧ f.stop.capture? 1 = some m.reached := by
  rcases run_of_find? h with ⟨skipped, rest, htext, hrun⟩
  rcases head_of_run [] (parameters ++ [char '\x7b']) (by decide) (by decide) rfl hrun with
    ⟨_, _, rest', hrest, rfl, hhead, d, hmarks, hafter, hbody⟩
  rcases reads_plainHead hhead with ⟨gap, header, rfl, hgap, hunopened, hcloses⟩
  have htext' : m.text = skipped ++
      (m.name.toList ++ (gap ++ '(' :: (header ++ '\x7b' :: rest'))) := by
    rw [htext, show rest = _ from hrest]
    simp
  -- Here the name could be the end of a longer one, so it has to be alone.
  have hplace : skipped.length = m.before.length := by
    have hmem := mem_callPlaces m.name.toList skipped (header ++ '\x7b' :: rest') hgap
    rw [← htext', halone] at hmem
    exact List.mem_singleton.1 hmem
  rcases capture_of_place hgap hunopened htext' hplace (Nat.le_add_left 2 _) hmarks
    hafter hbody with
    ⟨-, hheader, hcapture⟩
  exact ⟨hheader ▸ hcloses, hcapture⟩

/-- The parameter list ends in the header, and a list of exceptions may follow. -/
theorem header_cases (h : ClosesPlain m.header ∨ ClosesThrowing m.header) :
    ∃ params gap clause, m.header = params ++ ')' :: (gap ++ clause) ∧ '\x7b' ∉ params ∧
      (∀ x ∈ gap, Text.isBlank x = true) ∧
      (clause = [] ∨ ∃ exceptions, clause = "throws".toList ++ exceptions ∧
        '\x7b' ∉ exceptions) := by
  have hunopened := m.header_unopened
  rcases h with ⟨params, gap, hheader, hgap⟩ | ⟨params, gap, exceptions, hheader, hgap⟩
  · rw [hheader] at hunopened
    exact ⟨params, gap, [], by simpa using hheader, fun hmem => hunopened (by simp [hmem]), hgap,
      Or.inl rfl⟩
  · rw [hheader] at hunopened
    exact ⟨params, gap, _, hheader, fun hmem => hunopened (by simp [hmem]), hgap,
      Or.inr ⟨exceptions, rfl, fun hmem => hunopened (by simp [hmem])⟩⟩

/-- The declaration of the method is found. -/
theorem exists_find?_declaration (h : m.Declared) :
    ∃ f, (declaration m.name.toList).find? m.text = some f := by
  rcases h with ⟨⟨front, space, types, gap, hbefore, hspace, htypes, hgap⟩, hcloses⟩
  rcases header_cases hcloses with ⟨params, gap', clause, hheader, hparams, hgap', hclause⟩
  rcases m.exists_reached_append with ⟨rest, hrest⟩
  have htext : m.text = front ++ ((space ++ (types ++ gap) ++ (m.name.toList ++ (m.gap ++ '(' ::
      (params ++ ')' :: gap')))) ++ (clause ++ '\x7b' :: (m.reached ++ '\x7d' :: rest))) := by
    simp [MethodParts.text, hbefore, hheader, hrest]
  have hreads : (chain ([blanks1, many1 isSignatureChar, blanks1] ++
      (m.name.toList.map char ++ parameters))).Reads
        (space ++ (types ++ gap) ++
          (m.name.toList ++ (m.gap ++ '(' :: (params ++ ')' :: gap')))) := by
    refine reads_chain_append.2 ⟨_, _, rfl, ?_, reads_chain_append.2 ⟨_, _, rfl,
      reads_chain_chars.2 rfl, reads_parameters.2 ⟨_, _, _, rfl, m.gap_blank, hparams, hgap'⟩⟩⟩
    exact reads_chain_cons.2 ⟨_, _, rfl, reads_many1.2 hspace,
      reads_chain_cons.2 ⟨_, _, rfl, reads_many1.2 htypes, reads_many1.2 hgap⟩⟩
  rw [htext]
  rcases run_declaration (Nat.le_add_left 2 _)
    (c := ⟨front.reverse, _, front.length, []⟩) rfl hreads
    hclause m.reached_unclosed rfl with ⟨e, he⟩
  exact find?_of_run he

/-- The name of the method is found with its parameter list and body. -/
theorem exists_find?_plainDeclaration (h : ClosesPlain m.header) :
    ∃ f, (plainDeclaration m.name.toList).find? m.text = some f := by
  rcases h with ⟨params, gap, hheader, hgap⟩
  have hparams : '\x7b' ∉ params := fun hmem => m.header_unopened (by simp [hheader, hmem])
  rcases m.exists_reached_append with ⟨rest, hrest⟩
  have htext : m.text = m.before ++ ((m.name.toList ++ (m.gap ++ '(' :: (params ++ ')' :: gap))) ++
      '\x7b' :: (m.reached ++ '\x7d' :: rest)) := by
    simp [MethodParts.text, hheader, hrest]
  have hsimple : ∀ p ∈ [] ++ (m.name.toList.map char ++ parameters), p.isSimple = true :=
    forall_mem_named (fun _ => rfl) (by decide) (by decide) m.name.toList
  have hreads : (chain (m.name.toList.map char ++ parameters)).Reads
      (m.name.toList ++ (m.gap ++ '(' :: (params ++ ')' :: gap))) :=
    reads_chain_append.2 ⟨_, _, rfl, reads_chain_chars.2 rfl,
      reads_parameters.2 ⟨_, _, _, rfl, m.gap_blank, hparams, hgap⟩⟩
  rw [htext, plainDeclaration, ← List.append_assoc (m.name.toList.map char)]
  rcases run_opened (Nat.le_add_left 2 _) (c := ⟨m.before.reverse, _, m.before.length, []⟩) rfl
    (isSimple_chain hsimple) hreads m.reached_unclosed rfl with ⟨e, he⟩
  exact find?_of_run he

/-- The body of a method with a head that is looked for is taken up to its first closing brace. -/
theorem literalBody_of_recognised (h : m.Recognised) :
    literalBody m.name.toList m.text = some m.reached := by
  unfold literalBody
  cases hfirst : (declaration m.name.toList).find? m.text with
  | some f => exact (of_find?_declaration hfirst).2
  | none =>
    -- The name alone is only looked for where no declaration is found.
    rcases h with hdeclared | ⟨halone, hplain⟩
    · rcases exists_find?_declaration hdeclared with ⟨f, hf⟩
      rw [hfirst] at hf
      cases hf
    · rcases exists_find?_plainDeclaration hplain with ⟨f, hf⟩
      rw [hf]
      exact (of_find?_plainDeclaration halone hf).2

/-- With any other head, no body is found. -/
theorem literalBody_of_not_recognised (halone : m.Alone) (h : ¬ m.Recognised) :
    literalBody m.name.toList m.text = none := by
  unfold literalBody
  cases hfirst : (declaration m.name.toList).find? m.text with
  | some f => exact absurd (Or.inl (of_find?_declaration hfirst).1) h
  | none =>
    cases hsecond : (plainDeclaration m.name.toList).find? m.text with
    | none => rfl
    | some f => exact absurd (Or.inr ⟨halone, (of_find?_plainDeclaration halone hsecond).1⟩) h

end MethodText

/-! ## Dependencies in a body -/

/-- The spellings of variables that are taken for repositories and services. -/
def IsServiceName (name : List Char) : Prop :=
  IsName isSmall name ∧ ("Repository".toList <:+ name ∨ "Service".toList <:+ name)

instance (name : List Char) : Decidable (IsServiceName name) :=
  inferInstanceAs (Decidable (IsName isSmall name ∧ _))

def serviceName : Pattern :=
  .one isSmall ++ .many isNameChar ++ .alt (.literal "Repository") (.literal "Service")

/-- The end of a name from another first letter on is left of it. -/
theorem IsName.of_suffix {first : Char → Bool} {name ending : List Char} (h : IsName first name)
    (hsuffix : ending <:+ name) {d : Char} (hhead : ending.head? = some d) (hd : first d = false) :
    ∃ front, name = front ++ ending ∧ IsName first front := by
  rcases hsuffix with ⟨front, rfl⟩
  rcases h with ⟨x, rest, hname, hx, hrest⟩
  cases front with
  | nil =>
    -- The name would start with the ending.
    rw [← List.nil_append ending, hname] at hhead
    rw [← Option.some.inj hhead, hx] at hd
    cases hd
  | cons y front =>
    rcases List.cons.inj hname with ⟨rfl, rfl⟩
    exact ⟨_, rfl, y, front, rfl, hx, fun c hc => hrest c (List.mem_append_left _ hc)⟩

theorem reads_serviceName {name : List Char} (h : IsServiceName name) : serviceName.Reads name := by
  rcases h with ⟨hname, hending | hending⟩
  · rcases hname.of_suffix hending rfl rfl with ⟨front, rfl, hfront⟩
    exact ⟨front, _, rfl, reads_name.2 hfront, Or.inl (reads_literal.2 rfl)⟩
  · rcases hname.of_suffix hending rfl rfl with ⟨front, rfl, hfront⟩
    exact ⟨front, _, rfl, reads_name.2 hfront, Or.inr (reads_literal.2 rfl)⟩

theorem isNameChar_of_serviceName {name : List Char} (h : serviceName.Reads name) :
    ∀ c ∈ name, isNameChar c = true := by
  have hendings : ∀ c ∈ "Repository".toList ++ "Service".toList, isNameChar c = true :=
    List.all_eq_true.1 (by decide)
  rcases h with ⟨front, ending, rfl, hfront, hending⟩
  intro c hc
  rcases List.mem_append.1 hc with hc | hc
  · exact (reads_name.1 hfront).all (fun _ => isNameChar_of_isSmall) c hc
  · refine hendings c (List.mem_append.2 ?_)
    rcases hending with hending | hending
    · exact Or.inl (reads_literal.1 hending ▸ hc)
    · exact Or.inr (reads_literal.1 hending ▸ hc)

/-- A call on a repository or service variable that stands in the text is found. -/
theorem mem_repositoryCalls {text receiver method : List Char} (hreceiver : IsServiceName receiver)
    (hmethod : IsName isSmall method) (h : StaticCall text receiver method) :
    (String.ofList receiver, String.ofList method) ∈ repositoryCall.captures2 text :=
  mem_callOn (p := serviceName) rfl isNameChar_of_serviceName (reads_serviceName hreceiver)
    hreceiver.1.ne_nil hmethod h

/-- What a call on a variable is recorded under: the type of the variable or else its name. -/
def callOwner (fieldType? : String → Option String) (name : String) : String :=
  match fieldType? name with
  | some type => if type.isEmpty then name else type
  | none => name

/-- The calls on repositories and services and the creations in a body are dependencies. -/
def CoversBody (fieldType? : String → Option String) (body : List Char) (deps : NameSet) : Prop :=
  (∀ receiver method, IsServiceName receiver → IsName isSmall method →
    StaticCall body receiver method →
    callOwner fieldType? (String.ofList receiver) ++ "#" ++ String.ofList method ∈ deps.toList) ∧
  ∀ type, IsName isCapital type → Creates body type →
    String.ofList type ++ "#constructor" ∈ deps.toList

/-- What a body gives covers its calls, creations and fields. -/
theorem coversBody_of_ok {fieldType? : String → Option String} {body : List Char} {deps : NameSet}
    (h : bodyDependencies fieldType? body = .ok deps) : CoversBody fieldType? body deps := by
  have hmem : ∀ dep, dep ∈ (repositoryCall.captures2 body).map
      (fun call => callOwner fieldType? call.1 ++ "#" ++ call.2) ++
        (creations body).map (· ++ "#constructor") → dep ∈ deps.toList := by
    intro dep hdep
    unfold bodyDependencies at h
    cases hvariables : variableDependencies body (recordStatic
        ((repositoryCall.captures2 body).map callText) (staticCall.captures2 body)).1
        (variableCall.captures2 body) with
    | error e =>
      simp only [hvariables, bind, Except.bind] at h
      cases h
    | ok others =>
      simp only [hvariables, bind, Except.bind] at h
      cases h
      refine SortedSet.mem_ofList.2 ?_
      simp only [List.append_assoc]
      rw [← List.append_assoc]
      exact List.mem_append_left _ hdep
  -- What is written in the body is found, and what is found is a dependency.
  refine ⟨fun receiver method hreceiver hmethod hcall => ?_, fun type htype hcreates => ?_⟩
  · refine hmem _ (List.mem_append_left _ ?_)
    exact List.mem_map.2 ⟨_, mem_repositoryCalls hreceiver hmethod hcall, rfl⟩
  · refine hmem _ (List.mem_append_right _ ?_)
    exact List.mem_map.2 ⟨_, mem_creations htype hcreates, rfl⟩

/-- The dependencies of a recognised method are those of what is read of its body. -/
theorem methodDependencies_of_recognised {m : MethodText} (h : m.Recognised)
    (fieldType? : String → Option String) :
    ∃ deps, methodDependencies fieldType? m.text m.name = .ok deps ∧
      bodyDependencies fieldType? m.reached = .ok deps := by
  rcases methodDependencies_literal m.name_ordinary fieldType? m.text with ⟨deps, hdeps, hliteral⟩
  rw [literalDependencies, MethodText.literalBody_of_recognised h] at hliteral
  exact ⟨deps, hdeps, hliteral⟩

/-- For a method that is not recognised nothing is found. -/
theorem methodDependencies_of_not_recognised {m : MethodText} (halone : m.Alone)
    (h : ¬ m.Recognised) (fieldType? : String → Option String) :
    methodDependencies fieldType? m.text m.name = .ok SortedSet.empty := by
  rcases methodDependencies_literal m.name_ordinary fieldType? m.text with ⟨deps, hdeps, hliteral⟩
  rw [literalDependencies, MethodText.literalBody_of_not_recognised halone h] at hliteral
  cases hliteral
  exact hdeps

/-- The dependencies of a method with a head that is looked for are those of its body up to the
first closing brace, so those of the whole body exactly if there is no block in it. With any other
head, there are none. -/
theorem method_body_reached (m : MethodText) (fieldType? : String → Option String) :
    (m.Recognised → ∃ deps, methodDependencies fieldType? m.text m.name = .ok deps ∧
      bodyDependencies fieldType? m.reached = .ok deps ∧ CoversBody fieldType? m.reached deps) ∧
    (m.Alone → ¬ m.Recognised →
      methodDependencies fieldType? m.text m.name = .ok SortedSet.empty) ∧
    (m.reached = m.body ↔ '\x7b' ∉ m.body) := by
  refine ⟨fun h => ?_, fun halone h => methodDependencies_of_not_recognised halone h fieldType?,
    m.reached_eq_body_iff⟩
  rcases methodDependencies_of_recognised h fieldType? with ⟨deps, hdeps, hbody⟩
  exact ⟨deps, hdeps, hbody, coversBody_of_ok hbody⟩

/-- The text of a class with a method of the given body. -/
def classWithMethod (body : String) : MethodParts where
  before := "class A \x7b void ".toList
  name := "m"
  gap := []
  header := ") ".toList
  body := body.toList
  after := " \x7d".toList

theorem recognised_classWithMethod {m : MethodText} {body : String}
    (h : m.toMethodParts = classWithMethod body) : m.Recognised := by
  have hbefore : "class A \x7b void ".toList =
      "class A \x7b".toList ++ ([' '] ++ ("void".toList ++ [' '])) := by decide
  have hblank : ∀ c ∈ [' '], Text.isBlank c = true := List.all_eq_true.1 rfl
  have htypes : ∀ c ∈ "void".toList, isSignatureChar c = true :=
    List.all_eq_true.1 (by decide +kernel)
  exact Or.inl ⟨⟨_, _, _, _, (congrArg MethodParts.before h).trans hbefore, ⟨hblank, by simp⟩,
    ⟨htypes, by simp⟩, hblank, by simp⟩, Or.inl ⟨[], _, congrArg MethodParts.header h, hblank⟩⟩

def callAlone : MethodText where
  toMethodParts := classWithMethod " userRepository.save(new User(u)); "
  name_ordinary := by decide
  gap_blank := List.forall_mem_nil _
  header_unopened := by decide
  body_balanced := by decide
  own_place := by decide +kernel

/-- Both are found. -/
theorem call_without_block_found :
    callAlone.Recognised ∧ callAlone.reached = callAlone.body ∧
    ∃ deps, methodDependencies (fun _ => none) callAlone.text "m" = .ok deps ∧
      "userRepository#save" ∈ deps.toList ∧ "User#constructor" ∈ deps.toList := by
  have hrecognised : callAlone.Recognised := recognised_classWithMethod rfl
  rcases method_body_reached callAlone (fun _ => none) with ⟨hfound, -, hwhole⟩
  have hwhole' : callAlone.reached = callAlone.body := hwhole.2 (by decide)
  rcases hfound hrecognised with ⟨deps, hdeps, -, hcalls, hcreations⟩
  rw [hwhole'] at hcalls hcreations
  refine ⟨hrecognised, hwhole', deps, hdeps, ?_, ?_⟩
  · refine hcalls "userRepository".toList "save".toList (by decide) (by decide)
      ⟨[' '], [], "new User(u)); ".toList, by decide, by simp, ?_⟩
    intro c hc
    rw [← Option.some.inj hc]
    decide
  · exact hcreations "User".toList (by decide) ⟨" userRepository.save(".toList, [' '], [],
      "u)); ".toList, by decide, List.all_eq_true.1 rfl, by simp, by simp⟩

/-- A method with a block in its body and a call on a repository after it. -/
def callAfterBlock : MethodText where
  toMethodParts := classWithMethod " if (x) \x7b y(); \x7d userRepository.save(u); "
  name_ordinary := by decide
  gap_blank := List.forall_mem_nil _
  header_unopened := by decide
  body_balanced := by decide
  own_place := by decide +kernel

/-- The call after the block is not found. -/
theorem call_after_block_missed :
    StaticCall callAfterBlock.body "userRepository".toList "save".toList ∧
    IsServiceName "userRepository".toList ∧ IsName isSmall "save".toList ∧
    methodDependencies (fun _ => none) callAfterBlock.text "m" = .ok SortedSet.empty := by
  have hbody : bodyDependencies (fun _ => none) callAfterBlock.reached = .ok SortedSet.empty := by
    decide +kernel
  rcases methodDependencies_of_recognised (m := callAfterBlock) (recognised_classWithMethod rfl)
    (fun _ => none) with ⟨deps, hdeps, hreached⟩
  rw [hbody] at hreached
  cases hreached
  refine ⟨⟨" if (x) \x7b y(); \x7d ".toList, [], "u); ".toList, by decide, by simp, ?_⟩,
    by decide, by decide, hdeps⟩
  intro c hc
  rw [← Option.some.inj hc]
  decide

end JavaDeps.Java
