import JavaDeps.Java.Call
import JavaDeps.Proofs.Pattern.Search

/-!
# Calls that are found

The calls and creations that are found in a text are spelled like calls and creations, and one that
stands in the text is found wherever no name runs into it.
-/

namespace JavaDeps.Java

open Pattern

/-! ## Names -/

def IsName (first : Char → Bool) (text : List Char) : Prop :=
  ∃ x rest, text = x :: rest ∧ first x = true ∧ ∀ y ∈ rest, isNameChar y = true

theorem isName_iff {first : Char → Bool} {text : List Char} :
    (text.head?.any first && text.tail.all isNameChar) = true ↔ IsName first text := by
  cases text with
  | nil => simp [IsName]
  | cons x rest =>
    simp only [List.head?_cons, Option.any_some, List.tail_cons, Bool.and_eq_true, List.all_eq_true]
    refine ⟨fun ⟨hx, hrest⟩ => ⟨x, rest, rfl, hx, hrest⟩, ?_⟩
    rintro ⟨_, _, heq, hx, hrest⟩
    cases heq
    exact ⟨hx, hrest⟩

instance (first : Char → Bool) (text : List Char) : Decidable (IsName first text) :=
  decidable_of_iff _ isName_iff

/-- Names are read by their first character and the rest. -/
theorem reads_name {first : Char → Bool} {text : List Char} :
    (Pattern.one first ++ Pattern.many isNameChar).Reads text ↔ IsName first text := by
  constructor
  · rintro ⟨_, rest, rfl, ⟨x, hx, rfl⟩, hrest⟩
    exact ⟨x, rest, rfl, hx, reads_many.1 hrest⟩
  · rintro ⟨x, rest, rfl, hx, hrest⟩
    exact ⟨[x], rest, rfl, ⟨x, hx, rfl⟩, reads_many.2 hrest⟩

theorem isNameChar_of_isCapital {c : Char} (h : isCapital c = true) : isNameChar c = true := by
  simp only [isCapital, isNameChar, Text.isAsciiLetter, Bool.and_eq_true, decide_eq_true_eq] at h ⊢
  simp [h]

theorem isNameChar_of_isSmall {c : Char} (h : isSmall c = true) : isNameChar c = true := by
  simp only [isSmall, isNameChar, Text.isAsciiLetter, Bool.and_eq_true, decide_eq_true_eq] at h ⊢
  simp [h]

theorem not_isBlank_of_isNameChar {c : Char} (h : isNameChar c = true) :
    Text.isBlank c = false := by
  simp only [isNameChar, Text.isAsciiLetter, Text.isAsciiDigit, Bool.or_eq_true, Bool.and_eq_true,
    decide_eq_true_eq, beq_iff_eq] at h
  have hrange : 48 ≤ c.toNat ∧ c.toNat ≤ 122 := by
    rcases h with (h | h) | rfl
    · omega
    · omega
    · decide
  have hsmall : c.toNat < 128 := by omega
  simp only [Text.isBlank, hsmall, if_true, Bool.or_eq_false_iff, Bool.and_eq_false_iff,
    beq_eq_false_iff_ne, decide_eq_false_iff_not]
  omega

/-- A name consists of characters of names. -/
theorem IsName.all {first : Char → Bool} (hfirst : ∀ c, first c = true → isNameChar c = true)
    {text : List Char} (h : IsName first text) : ∀ y ∈ text, isNameChar y = true := by
  rcases h with ⟨x, rest, rfl, hx, hrest⟩
  intro y hy
  rcases List.mem_cons.1 hy with rfl | hy
  · exact hfirst y hx
  · exact hrest y hy

theorem IsName.ne_nil {first : Char → Bool} {text : List Char} (h : IsName first text) :
    text ≠ [] := by
  rcases h with ⟨x, rest, rfl, -, -⟩
  simp

/-! ## Dividing a text -/

/-- Where one division of a text lies with respect to another one. -/
theorem append_cases {α : Type} {first second first' second' : List α}
    (h : first ++ second = first' ++ second') :
    (∃ x, x ≠ [] ∧ first' = first ++ x ∧ second = x ++ second') ∨
      ∃ y, first = first' ++ y ∧ second' = y ++ second := by
  rcases Nat.lt_or_ge first.length first'.length with hlt | hge
  · rcases split_of_append_eq h.symm (Nat.le_of_lt hlt) with ⟨x, rfl, rfl⟩
    refine Or.inl ⟨x, ?_, rfl, rfl⟩
    rintro rfl
    simp at hlt
  · exact Or.inr (split_of_append_eq h hge)

/-- The longest run of characters of a class at the start of a text is determined. -/
theorem run_unique {accepts : Char → Bool} {first second first' second' : List Char}
    (h : first ++ second = first' ++ second') (hfirst : ∀ c ∈ first, accepts c = true)
    (hfirst' : ∀ c ∈ first', accepts c = true)
    (hsecond : ∀ c, second.head? = some c → accepts c = false)
    (hsecond' : ∀ c, second'.head? = some c → accepts c = false) :
    first = first' ∧ second = second' := by
  rcases append_cases h with ⟨x, hx, rfl, rfl⟩ | ⟨y, rfl, rfl⟩
  · cases x with
    | nil => exact absurd rfl hx
    | cons c x' =>
      have hfalse := hsecond c rfl
      have htrue := hfirst' c (by simp)
      rw [hfalse] at htrue
      cases htrue
  · cases y with
    | nil => simp
    | cons c y' =>
      have hfalse := hsecond' c rfl
      have htrue := hfirst c (by simp)
      rw [hfalse] at htrue
      cases htrue

/-- What holds of the first character of a text, in the form in which `run_unique` asks for it. -/
theorem test_of_head?_cons {p : Char → Bool} {b : Bool} {x : Char} {rest : List Char} (hx : p x = b)
    (c : Char) (hc : (x :: rest).head? = some c) : p c = b := by
  rw [← Option.some.inj hc]
  exact hx

/-! ## Shapes -/

/-- The parenthesis of a call, with blanks before it. -/
theorem openParen_matches {piece : List Char} {groups : List (Nat × List Char)} :
    openParen.Matches piece groups ↔
      ∃ gap, piece = gap ++ ['('] ∧ (∀ x ∈ gap, Text.isBlank x = true) ∧ groups = [] := by
  constructor
  · rintro ⟨gap, _, _, _, rfl, rfl, ⟨rfl, hgap⟩, rfl, hparen⟩
    rw [reads_char.1 hparen]
    exact ⟨gap, rfl, reads_many.1 hgap, rfl⟩
  · rintro ⟨gap, rfl, hgap, rfl⟩
    exact ⟨gap, ['('], [], [], rfl, rfl, ⟨rfl, reads_many.2 hgap⟩, rfl, reads_char.2 rfl⟩

def callOn (receiver : Pattern) : Pattern :=
  .group 1 receiver ++ .char '.' ++ .group 2 memberName ++ openParen

/-- What a call looks like: a receiver, a dot, a method and an opening parenthesis. -/
theorem callOn_matches {p : Pattern} {piece : List Char} {groups : List (Nat × List Char)} :
    (callOn p).Matches piece groups ↔ ∃ receiver method gap,
      piece = receiver ++ '.' :: (method ++ (gap ++ ['('])) ∧ p.Reads receiver ∧
      IsName isSmall method ∧ (∀ x ∈ gap, Text.isBlank x = true) ∧
      groups = [(1, receiver), (2, method)] := by
  constructor
  · rintro ⟨_, _, _, _, rfl, rfl, ⟨_, method, _, _, rfl, rfl, ⟨receiver, _, _, _, rfl, rfl,
      ⟨rfl, hreceiver⟩, rfl, hdot⟩, rfl, hmethod⟩, hparen⟩
    rcases openParen_matches.1 hparen with ⟨gap, rfl, hgap, rfl⟩
    rw [reads_char.1 hdot]
    exact ⟨receiver, method, gap, by simp, hreceiver, reads_name.1 hmethod, hgap, rfl⟩
  · rintro ⟨receiver, method, gap, rfl, hreceiver, hmethod, hgap, rfl⟩
    exact ⟨receiver ++ ['.'] ++ method, gap ++ ['('], [(1, receiver), (2, method)],
      [], by simp, rfl, ⟨receiver ++ ['.'], method, [(1, receiver)], [(2, method)], rfl, rfl,
        ⟨receiver, ['.'], [(1, receiver)], [], rfl, rfl, ⟨rfl, hreceiver⟩, rfl, reads_char.2 rfl⟩,
        rfl, reads_name.2 hmethod⟩, openParen_matches.2 ⟨gap, rfl, hgap, rfl⟩⟩

/-- What a creation looks like: the word `new`, a type and an opening parenthesis. -/
theorem creation_matches {piece : List Char} {groups : List (Nat × List Char)} :
    creation.Matches piece groups ↔ ∃ space type gap,
      piece = ['n', 'e', 'w'] ++ (space ++ (type ++ (gap ++ ['(']))) ∧
      (∀ x ∈ space, Text.isBlank x = true) ∧ space ≠ [] ∧ IsName isCapital type ∧
      (∀ x ∈ gap, Text.isBlank x = true) ∧ groups = [(1, type)] := by
  have hplain : ∀ {text : List Char} {groups : List (Nat × List Char)},
      (Pattern.literal "new").Matches text groups ↔ groups = [] ∧
        (Pattern.literal "new").Reads text :=
    matches_plain (isPlain_literalChars _)
  constructor
  · rintro ⟨_, _, _, _, rfl, rfl, ⟨_, type, _, _, rfl, rfl, ⟨_, space, _, _, rfl, rfl, hnew,
      rfl, hspace⟩, rfl, htype⟩, hparen⟩
    rcases openParen_matches.1 hparen with ⟨gap, rfl, hgap, rfl⟩
    rcases reads_many1.1 hspace with ⟨hblank, hne⟩
    rcases hplain.1 hnew with ⟨rfl, hreads⟩
    rw [reads_literal.1 hreads]
    exact ⟨space, type, gap, by simp, hblank, hne, reads_name.1 htype, hgap, rfl⟩
  · rintro ⟨space, type, gap, rfl, hspace, hne, htype, hgap, rfl⟩
    exact ⟨['n', 'e', 'w'] ++ space ++ type, gap ++ ['('], [(1, type)], [], by simp, rfl,
      ⟨['n', 'e', 'w'] ++ space, type, [], [(1, type)], rfl, rfl,
        ⟨['n', 'e', 'w'], space, [], [], rfl, rfl, hplain.2 ⟨rfl, reads_literal.2 rfl⟩, rfl,
          reads_many1.2 ⟨hspace, hne⟩⟩, rfl, reads_name.2 htype⟩,
      openParen_matches.2 ⟨gap, rfl, hgap, rfl⟩⟩

/-! ## Calls in a text -/

/-- A call on a type stands in the text, and no name runs into that of the type. -/
def StaticCall (text type method : List Char) : Prop :=
  ∃ before gap rest, text = before ++ (type ++ '.' :: (method ++ (gap ++ '(' :: rest))) ∧
    (∀ x ∈ gap, Text.isBlank x = true) ∧ ∀ c, before.getLast? = some c → isNameChar c = false

def Creates (text type : List Char) : Prop :=
  ∃ before space gap rest,
    text = before ++ (['n', 'e', 'w'] ++ (space ++ (type ++ (gap ++ '(' :: rest)))) ∧
    (∀ x ∈ space, Text.isBlank x = true) ∧ space ≠ [] ∧ ∀ x ∈ gap, Text.isBlank x = true

/-- Where blanks come next, no character of a name does. -/
theorem head?_blanks {blanks rest : List Char} (h : ∀ x ∈ blanks, Text.isBlank x = true)
    (hne : blanks ≠ []) (c : Char) (hc : (blanks ++ rest).head? = some c) :
    isNameChar c = false := by
  rcases List.exists_cons_of_ne_nil hne with ⟨x, blanks', rfl⟩
  have hx : x = c := by simpa using hc
  have hblank := h x List.mem_cons_self
  rw [hx] at hblank
  cases hname : isNameChar c with
  | false => rfl
  | true =>
    rw [not_isBlank_of_isNameChar hname] at hblank
    cases hblank

theorem head?_gap {gap rest : List Char} (hgap : ∀ x ∈ gap, Text.isBlank x = true) (c : Char)
    (hc : (gap ++ '(' :: rest).head? = some c) : isNameChar c = false := by
  by_cases hne : gap = []
  · subst hne
    exact test_of_head?_cons (by decide) c hc
  · exact head?_blanks hgap hne c hc

theorem not_mem_gap {gap : List Char} (hgap : ∀ x ∈ gap, Text.isBlank x = true) {c : Char}
    (hname : isNameChar c = true) : c ∉ gap ++ ['('] := by
  intro hmem
  rcases List.mem_append.1 hmem with hmem | hmem
  · have hblank := hgap c hmem
    rw [not_isBlank_of_isNameChar hname] at hblank
    cases hblank
  · rw [List.mem_singleton.1 hmem] at hname
    exact absurd hname (by decide)

/-- A name that is followed by an opening parenthesis is not followed by a dot. -/
theorem no_paren_before_dot {method gap rest receiver after : List Char}
    (hmethod : ∀ y ∈ method, isNameChar y = true) (hgap : ∀ x ∈ gap, Text.isBlank x = true)
    (hreceiver : ∀ y ∈ receiver, isNameChar y = true) :
    method ++ (gap ++ '(' :: rest) ≠ receiver ++ '.' :: after := by
  intro h
  have hparen := (run_unique h hmethod hreceiver (head?_gap hgap)
    (test_of_head?_cons (by decide))).2
  cases gap with
  | nil => exact absurd (List.cons.inj hparen).1 (by decide)
  | cons b gap' =>
    have hblank := hgap b List.mem_cons_self
    rw [(List.cons.inj hparen).1] at hblank
    exact absurd hblank (by decide)

/-- No match of a call reaches over the start of a name that no other name runs into and that is
followed by a dot. -/
theorem callOn_clear {p : Pattern} (hp : ∀ {t}, p.Reads t → ∀ y ∈ t, isNameChar y = true)
    {before receiver after : List Char}
    (hbefore : ∀ c, before.getLast? = some c → isNameChar c = false) (hne : receiver ≠ [])
    (hreceiver : ∀ y ∈ receiver, isNameChar y = true) :
    (callOn p).Clear before (receiver ++ '.' :: after) := by
  refine clear_of (fun skipped first second rest groups hfirst hsecond hnil hnil' hmatch => ?_)
  rcases callOn_matches.1 hmatch with ⟨receiver', method, gap, heq, hreads, hmethod, hgap, -⟩
  rcases List.eq_nil_or_concat first with rfl | ⟨first', z, rfl⟩
  · exact hnil rfl
  rw [List.concat_eq_append] at heq hfirst
  have hz : isNameChar z = false := hbefore z (by simp [hfirst])
  -- The name starts the second part of the match: it is looked up where this can be.
  have hhead : ∀ c, second.head? = some c → isNameChar c = true := by
    intro c hc
    rcases List.exists_cons_of_ne_nil hne with ⟨x, receiver'', rfl⟩
    rcases List.exists_cons_of_ne_nil hnil' with ⟨d, second', rfl⟩
    have hdx : x = d := (List.cons.inj hsecond).1
    have hdc : d = c := Option.some.inj hc
    exact hreceiver c (by simp [← hdc, ← hdx])
  rcases append_cases heq with ⟨x, -, hx, -⟩ | ⟨y, hy, hrest⟩
  · -- inside the receiver
    rw [hp hreads z (by simp [hx])] at hz
    cases hz
  · cases y with
    | nil =>
      have hdot := hhead '.' (by rw [← show _ = second from hrest]; rfl)
      exact absurd hdot (by decide)
    | cons d y =>
      rcases append_cases (List.cons.inj hrest).2.symm with ⟨x, hx, hxm, hxs⟩ | ⟨w, -, hw⟩
      · cases y with
        | nil =>
          -- The method would be the name, and a dot would have to follow it.
          have hxm' : method = x := hxm
          have hsite : method ++ (gap ++ '(' :: rest) = receiver ++ '.' :: after := by
            rw [hsecond, hxs, hxm']
            simp
          exact no_paren_before_dot (hmethod.all (fun _ => isNameChar_of_isSmall))
            hgap hreceiver hsite
        | cons e y =>
          have hlast := congrArg List.getLast? hy
          have hmem : z ∈ e :: y := by
            refine List.mem_of_getLast? ?_
            simpa [List.getLast?_append, List.getLast?_cons] using hlast.symm
          have hname := hmethod.all (fun _ => isNameChar_of_isSmall) z
            (by rw [hxm]; exact List.mem_append_left x hmem)
          rw [hz] at hname
          cases hname
      · -- behind the method
        rcases List.exists_cons_of_ne_nil hnil' with ⟨c, second', rfl⟩
        exact not_mem_gap hgap (hhead c rfl) (by rw [hw]; simp)

/-- A call on a receiver of some form that stands in the text is found. -/
theorem mem_callOn {p : Pattern} (hp : p.isSimple = true)
    (hnames : ∀ {t}, p.Reads t → ∀ y ∈ t, isNameChar y = true) {text receiver method : List Char}
    (hreads : p.Reads receiver) (hne : receiver ≠ []) (hmethod : IsName isSmall method)
    (h : StaticCall text receiver method) :
    (String.ofList receiver, String.ofList method) ∈ (callOn p).captures2 text := by
  rcases h with ⟨before, gap, rest, rfl, hgap, hbefore⟩
  have hstraight : (callOn p).straight? 0 = some 2 := by
    have hfirst : (Pattern.group 1 p).straight? 0 = some 1 := by
      simp [straight?, isPlain_of_isSimple hp]
    show ((((Pattern.group 1 p).straight? 0).bind _).bind _).bind _ = _
    rw [hfirst]
    rfl
  have hsearch : (callOn p).isSearchable = true := by
    show (((p.isSimple && _) && _) && _) = true
    rw [hp]
    rfl
  have hpiece : receiver ++ '.' :: (method ++ (gap ++ '(' :: rest)) =
      (receiver ++ '.' :: (method ++ (gap ++ ['(']))) ++ rest := by simp
  have hclear : (callOn p).Clear before (receiver ++ '.' :: (method ++ (gap ++ '(' :: rest))) :=
    callOn_clear hnames hbefore hne (hnames hreads)
  have hmatch := callOn_matches.2 ⟨receiver, method, gap, rfl, hreads, hmethod, hgap, rfl⟩
  rw [hpiece] at hclear ⊢
  rcases findAll_at hstraight hsearch hmatch hclear with
    ⟨f, hf, piece', rest', groups', heq, hmatch', hgroups'⟩
  rcases callOn_matches.1 hmatch' with
    ⟨receiver', method', gap', rfl, hreads', hmethod', hgap', rfl⟩
  -- Names end where no further character of a name follows, so both calls are the same.
  have hdot : isNameChar '.' = false := by decide
  have heq' : receiver ++ '.' :: (method ++ (gap ++ '(' :: rest)) =
      receiver' ++ '.' :: (method' ++ (gap' ++ '(' :: rest')) := by simpa using heq
  rcases run_unique heq' (hnames hreads) (hnames hreads') (test_of_head?_cons hdot)
    (test_of_head?_cons hdot) with ⟨rfl, hrest⟩
  rcases run_unique (List.cons.inj hrest).2 (hmethod.all (fun _ => isNameChar_of_isSmall))
    (hmethod'.all (fun _ => isNameChar_of_isSmall)) (head?_gap hgap) (head?_gap hgap')
    with ⟨rfl, -⟩
  refine List.mem_map.2 ⟨f, hf, ?_⟩
  simp [Cursor.group, hgroups' (1, receiver) (by simp), hgroups' (2, method) (by simp)]

/-- A call on a type that stands in the text is found. -/
theorem mem_memberCalls {text type method : List Char} (htype : IsName isCapital type)
    (hmethod : IsName isSmall method) (h : StaticCall text type method) :
    (String.ofList type, String.ofList method) ∈ memberCalls text := by
  refine mem_callOn (p := .alt typeName memberName) rfl ?_ (Or.inl (reads_name.2 htype))
    htype.ne_nil hmethod h
  intro t ht
  exact ht.elim (fun ht => (reads_name.1 ht).all (fun _ => isNameChar_of_isCapital))
    (fun ht => (reads_name.1 ht).all (fun _ => isNameChar_of_isSmall))

/-- The methods that are called on a class are names with a small first letter. -/
theorem isName_of_mem_memberCalls {text : List Char} {c : String × String}
    (h : c ∈ memberCalls text) : IsName isSmall c.2.toList :=
  reads_name.1 (reads_captures2 rfl rfl h).2

theorem isName_of_mem_serviceCalls {text : List Char} {c : String × String}
    (h : c ∈ serviceCalls text) : IsName isSmall c.2.toList :=
  reads_name.1 (reads_captures2 rfl rfl h).2

/-- A name that is followed by blanks and another name is not followed by an opening parenthesis. -/
theorem no_paren_after_space {gap rest space type after : List Char}
    (hgap : ∀ x ∈ gap, Text.isBlank x = true) (hspace : ∀ x ∈ space, Text.isBlank x = true)
    (htype : IsName isCapital type) : gap ++ '(' :: rest ≠ space ++ (type ++ after) := by
  intro h
  rcases htype with ⟨c, type', rfl, hc, -⟩
  have hc' : Text.isBlank c = false := not_isBlank_of_isNameChar (isNameChar_of_isCapital hc)
  have hparen := (run_unique h hgap hspace (test_of_head?_cons (by decide))
    (test_of_head?_cons hc')).2
  have hparen' : '(' = c := (List.cons.inj hparen).1
  rw [← hparen'] at hc
  exact absurd hc (by decide)

/-- No match of a creation reaches over the word `new` of another one. -/
theorem creation_clear (before after : List Char) {space type : List Char}
    (hspace : ∀ x ∈ space, Text.isBlank x = true) (hne : space ≠ [])
    (htype : IsName isCapital type) :
    creation.Clear before (['n', 'e', 'w'] ++ (space ++ (type ++ after))) := by
  refine clear_of (fun skipped first second rest groups hfirst hsecond hnil hnil' hmatch => ?_)
  rcases creation_matches.1 hmatch with ⟨space', type', gap', heq, hspace', -, htype', hgap', -⟩
  -- The second part starts with the letter `n`; it is looked up where in the match this can be.
  rcases List.exists_cons_of_ne_nil hnil' with ⟨d, second', rfl⟩
  have hd : d = 'n' := (List.cons.inj hsecond).1.symm
  have hblank : Text.isBlank d = false := by rw [hd]; decide
  rcases append_cases heq with ⟨x, hx, hword, hx'⟩ | ⟨y, rfl, hrest⟩
  · -- inside the word `new`
    rcases List.exists_cons_of_ne_nil hnil with ⟨a, first', rfl⟩
    rcases List.exists_cons_of_ne_nil hx with ⟨b, x', rfl⟩
    have hbd : d = b := (List.cons.inj hx').1
    have hmem : b ∈ ['e', 'w'] := by
      rw [(List.cons.inj hword).2]
      simp
    rw [← hbd, hd] at hmem
    exact absurd hmem (by decide)
  · rcases append_cases hrest.symm with ⟨x, hx, rfl, hx'⟩ | ⟨y', rfl, hrest'⟩
    · -- among the blanks after it
      rcases List.exists_cons_of_ne_nil hx with ⟨b, x', rfl⟩
      have hbd : d = b := (List.cons.inj hx').1
      have h := hspace' b (by simp)
      rw [← hbd, hblank] at h
      cases h
    · rcases append_cases hrest'.symm with ⟨x, hx, rfl, hx'⟩ | ⟨y'', rfl, hrest''⟩
      · -- inside the name: it would have to end with this `new`
        have hnames : ∀ c ∈ x, isNameChar c = true := fun c hc =>
          htype'.all (fun _ => isNameChar_of_isCapital) c (List.mem_append_right _ hc)
        have hsite : x ++ (gap' ++ '(' :: rest) = ['n', 'e', 'w'] ++
            (space ++ (type ++ after)) := by
          rw [hsecond, hx']
          simp
        have hword : ∀ c ∈ ['n', 'e', 'w'], isNameChar c = true :=
          List.all_eq_true.1 (by decide)
        exact no_paren_after_space hgap' hspace htype
          (run_unique hsite hnames hword (head?_gap hgap') (head?_blanks hspace hne)).2
      · -- behind the name
        exact not_mem_gap hgap' (c := d) (by rw [hd]; decide) (by rw [hrest'']; simp)

/-- A creation that stands in the text is found. -/
theorem mem_creations {text type : List Char} (htype : IsName isCapital type)
    (h : Creates text type) : String.ofList type ∈ creations text := by
  rcases h with ⟨before, space, gap, rest, rfl, hspace, hne, hgap⟩
  have hstraight : creation.straight? 0 = some 1 := rfl
  have hpiece : ['n', 'e', 'w'] ++ (space ++ (type ++ (gap ++ '(' :: rest))) =
      (['n', 'e', 'w'] ++ (space ++ (type ++ (gap ++ ['('])))) ++ rest := by simp
  have hclear := creation_clear before (gap ++ '(' :: rest) hspace hne htype
  have hmatch := creation_matches.2 ⟨space, type, gap, rfl, hspace, hne, htype, hgap, rfl⟩
  rw [hpiece] at hclear ⊢
  rcases findAll_at hstraight rfl hmatch hclear with
    ⟨f, hf, piece', rest', groups', heq, hmatch', hgroups'⟩
  rcases creation_matches.1 hmatch' with
    ⟨space', type', gap', rfl, hspace', hne', htype', hgap', rfl⟩
  have heq' : space ++ (type ++ (gap ++ '(' :: rest)) =
      space' ++ (type' ++ (gap' ++ '(' :: rest')) := by simpa using heq
  have hhead : ∀ {name tail : List Char}, IsName isCapital name →
      ∀ c, (name ++ tail).head? = some c → Text.isBlank c = false := by
    rintro name tail ⟨x, rest, rfl, hx, -⟩
    exact test_of_head?_cons (not_isBlank_of_isNameChar (isNameChar_of_isCapital hx))
  have hnames := (run_unique heq' hspace hspace' (hhead htype) (hhead htype')).2
  rcases run_unique hnames (htype.all (fun _ => isNameChar_of_isCapital))
    (htype'.all (fun _ => isNameChar_of_isCapital)) (head?_gap hgap) (head?_gap hgap')
    with ⟨rfl, -⟩
  refine List.mem_map.2 ⟨f, hf, ?_⟩
  simp [Cursor.group, hgroups' (1, type) (by simp)]

end JavaDeps.Java
