import JavaDeps.Proofs.Pattern.Marks

/-!
# What a match reads

A pattern without groups and without conditions on places is described by the texts that it can
read, without regard to the order in which the ways are tried. Patterns with groups are put together
from such parts.
-/

namespace JavaDeps

def Cursor.forward (c : Cursor) (text rest : List Char) : Cursor :=
  ⟨text.reverse ++ c.before, rest, c.pos + text.length, c.marks⟩

@[simp] theorem Cursor.forward_nil (c : Cursor) : c.forward [] c.after = c := by
  simp [Cursor.forward]

/-- Two steps forward are one step over both texts. -/
theorem Cursor.forward_forward (c : Cursor) (first second rest rest' : List Char) :
    (c.forward first rest').forward second rest = c.forward (first ++ second) rest := by
  simp [Cursor.forward, Nat.add_assoc]

namespace Pattern

/-! ## What a pattern reads -/

/-- Some rounds of a repetition, each as described. -/
def Rounds (reads : List Char → Prop) (least : Nat) (most : Option Nat) (text : List Char) : Prop :=
  ∃ pieces : List (List Char), text = pieces.flatten ∧ least ≤ pieces.length ∧
    (∀ n, most = some n → pieces.length ≤ max least n) ∧ ∀ piece ∈ pieces, reads piece

/-- The texts that a pattern without conditions on places can read. -/
def Reads : Pattern → List Char → Prop
  | .empty, text => text = []
  | .one accepts, text => ∃ x, accepts x = true ∧ text = [x]
  | .seq p q, text => ∃ first second, text = first ++ second ∧ p.Reads first ∧ q.Reads second
  | .alt p q, text => p.Reads text ∨ q.Reads text
  | .rep p least most _, text => Rounds p.Reads least most text
  | .group _ p, text => p.Reads text
  | _, _ => False

/-- Whether a pattern marks nothing, looks at nothing but what it reads, and takes back every choice
when it has to. -/
def isPlain : Pattern → Bool
  | .empty => true
  | .one _ => true
  | .seq p q => p.isPlain && q.isPlain
  | .alt p q => p.isPlain && q.isPlain
  | .rep p _ _ greed => p.isPlain && greed != .possessive
  | _ => false

/-! ## Outcomes -/

/-- Wherever the continuation fails with the given marks, it leaves marks behind that were set after
them. -/
def Calm (k : Continuation) (marks : Marks) : Prop :=
  ∀ d left, d.marks = marks → k d = .lost left → marks.Extends left

/-- What a run of a plain pattern gives: a place that the continuation accepts after some text was
read, or marks set after those at the start. -/
def Answers (k : Continuation) (c : Cursor) (reads : List Char → Prop) : Outcome → Prop
  | .found e => ∃ text rest, c.after = text ++ rest ∧ reads text ∧
    k (c.forward text rest) = .found e
  | .lost left => c.marks.Extends left

namespace Answers

variable {k : Continuation} {c : Cursor} {reads reads' : List Char → Prop} {o : Outcome}

theorem imp (h : Answers k c reads o) (himp : ∀ text, reads text → reads' text) :
    Answers k c reads' o := by
  cases o with
  | lost left => exact h
  | found e =>
    rcases h with ⟨text, rest, hafter, hreads, hk⟩
    exact ⟨text, rest, hafter, himp text hreads, hk⟩

/-- The continuation itself answers after nothing was read. -/
theorem here (hk : Calm k c.marks) (hreads : reads []) : Answers k c reads (k c) := by
  cases h : k c with
  | lost left => exact hk c left rfl h
  | found e => exact ⟨[], c.after, rfl, hreads, by rw [Cursor.forward_nil, h]⟩

/-- Two runs one after the other. -/
theorem andThen {k' : Continuation} {second : List Char → Prop}
    (h : Answers k' c reads o)
    (h' : ∀ text rest, c.after = text ++ rest →
      Answers k (c.forward text rest) second (k' (c.forward text rest)))
    (himp : ∀ text text', reads text → second text' → reads' (text ++ text')) :
    Answers k c reads' o := by
  cases o with
  | lost left => exact h
  | found e =>
    rcases h with ⟨text, rest, hafter, hreads, hk'⟩
    have hnext := h' text rest hafter
    rw [hk'] at hnext
    rcases hnext with ⟨text', rest', hafter', hreads', hk⟩
    have hrest : rest = text' ++ rest' := hafter'
    refine ⟨text ++ text', rest', ?_, himp text text' hreads hreads', ?_⟩
    · rw [hafter, hrest, List.append_assoc]
    · rw [← Cursor.forward_forward]
      exact hk

/-- A run that answers at every place with some marks is a calm continuation there. -/
theorem calm {k' : Continuation} {marks : Marks}
    (h : ∀ d : Cursor, d.marks = marks → Answers k d reads (k' d)) : Calm k' marks := by
  intro d left hd hlost
  have hd' := h d hd
  rw [hlost] at hd'
  exact hd ▸ hd'

/-- A second way is tried from the same place when the first one is given up. -/
theorem orElse (inside : Bool) (next : Cursor → Outcome) (o : Outcome) :
    Answers k c reads o → Answers k c reads (next c) →
    Answers k c reads (match o with
      | .found e => .found e
      | .lost left => next { c with marks := Marks.restore inside c.marks left }) := by
  intro h hnext
  cases o with
  | found e => exact h
  | lost left =>
    have hmarks : Marks.restore inside c.marks left = c.marks := Marks.Extends.restore h inside
    simpa only [hmarks] using hnext

/-- One character was read before the run. -/
theorem afterOne {x : Char} {rest : List Char} (hx : c.after = x :: rest)
    (h : Answers k ⟨x :: c.before, rest, c.pos + 1, c.marks⟩ reads o)
    (himp : ∀ text, reads text → reads' (x :: text)) : Answers k c reads' o := by
  cases o with
  | lost left => exact h
  | found e =>
    rcases h with ⟨text, rest', hafter, hreads, hk⟩
    have hrest : rest = text ++ rest' := hafter
    refine ⟨x :: text, rest', by rw [hx, hrest]; rfl, himp text hreads, ?_⟩
    simpa [Cursor.forward, Nat.add_assoc, Nat.add_comm 1] using hk

end Answers

/-! ## Repetitions -/

theorem Rounds.nil {reads : List Char → Prop} {most : Option Nat} : Rounds reads 0 most [] :=
  ⟨[], rfl, Nat.le_refl _, fun _ _ => Nat.zero_le _, by simp⟩

/-- One more round can be read first, if the bounds allow it. -/
theorem Rounds.cons {reads : List Char → Prop} {least : Nat} {most : Option Nat}
    {piece text : List Char} (hpiece : reads piece)
    (h : Rounds reads (least - 1) (most.map (· - 1)) text) (hmore : least ≠ 0 ∨ most ≠ some 0) :
    Rounds reads least most (piece ++ text) := by
  rcases h with ⟨pieces, rfl, hleast, hmost, hreads⟩
  refine ⟨piece :: pieces, rfl, ?_, ?_, ?_⟩
  · simp only [List.length_cons]
    omega
  · rintro n rfl
    have hn := hmost (n - 1) rfl
    have hpos : least ≠ 0 ∨ n ≠ 0 := hmore.imp_right (fun h hn => h (by rw [hn]))
    simp only [List.length_cons]
    omega
  · intro x hx
    rcases List.mem_cons.1 hx with rfl | hx
    · exact hpiece
    · exact hreads x hx

/-- A repetition can stop where no further round is required. -/
theorem stop_answers {k : Continuation} {c : Cursor} (hk : Calm k c.marks)
    (reads : List Char → Prop) (least : Nat) (most : Option Nat) :
    Answers k c (Rounds reads least most) (if least == 0 then k c else .lost c.marks) := by
  cases least with
  | zero => exact Answers.here hk Rounds.nil
  | succ n => exact Marks.Extends.refl c.marks

section

variable {k : Continuation} {marks : Marks} (accepts : Char → Bool) (inside : Bool)

theorem reads_one_append {accepts : Char → Bool} {x : Char} (hx : accepts x = true) {least : Nat}
    {most : Option Nat} (hmost : most ≠ some 0) (text : List Char)
    (h : Rounds (Reads (.one accepts)) (least - 1) (most.map (· - 1)) text) :
    Rounds (Reads (.one accepts)) least most (x :: text) := by
  have hone : Reads (.one accepts) [x] := ⟨x, hx, rfl⟩
  exact Rounds.cons hone h (Or.inr hmost)

/-- A greedy run reads rounds of characters within its bounds. -/
theorem greedyRun_answers (hk : Calm k marks) (after : List Char) (least : Nat) (most : Option Nat)
    (before : List Char) (pos : Nat) :
    Answers k ⟨before, after, pos, marks⟩ (Rounds (Reads (.one accepts)) least most)
      (greedyRun accepts inside k marks least most before pos after) := by
  induction after generalizing least most before pos with
  | nil => exact stop_answers (c := ⟨before, [], pos, marks⟩) hk _ least most
  | cons x rest ih =>
    have hstop := stop_answers (c := ⟨before, x :: rest, pos, marks⟩) hk
      (Reads (.one accepts)) least most
    unfold greedyRun
    by_cases hx : (most != some 0 && accepts x) = true
    · have hx' : most ≠ some 0 ∧ accepts x = true := by simpa using hx
      have hmore := Answers.afterOne (c := ⟨before, x :: rest, pos, marks⟩) rfl
        (ih (least - 1) (most.map (· - 1)) (x :: before) (pos + 1))
        (reads_one_append hx'.2 hx'.1)
      simp only [hx, if_true]
      exact Answers.orElse inside (fun d => if least == 0 then k d else .lost d.marks) _ hmore hstop
    · simp only [hx]
      exact hstop

/-- A lazy run reads rounds of characters within its bounds. -/
theorem lazyRun_answers (hk : Calm k marks) (after : List Char) (least : Nat) (most : Option Nat)
    (before : List Char) (pos : Nat) :
    Answers k ⟨before, after, pos, marks⟩ (Rounds (Reads (.one accepts)) least most)
      (lazyRun accepts inside k marks least most before pos after) := by
  induction after generalizing least most before pos with
  | nil => exact stop_answers (c := ⟨before, [], pos, marks⟩) hk _ least most
  | cons x rest ih =>
    have hstop := stop_answers (c := ⟨before, x :: rest, pos, marks⟩) hk
      (Reads (.one accepts)) least most
    unfold lazyRun
    refine Answers.orElse inside (fun d =>
      if most != some 0 && accepts x then
        lazyRun accepts inside k d.marks (least - 1) (most.map (· - 1)) (x :: before) (pos + 1) rest
      else .lost d.marks) _ hstop ?_
    by_cases hx : (most != some 0 && accepts x) = true
    · have hx' : most ≠ some 0 ∧ accepts x = true := by simpa using hx
      simp only [hx, if_true]
      exact Answers.afterOne rfl (ih _ _ _ _) (reads_one_append hx'.2 hx'.1)
    · simp only [hx]
      exact Marks.Extends.refl marks

end

/-- A loop answers if one step of it does. -/
theorem loop_answers {step : Continuation → Continuation} {reads : List Char → Prop}
    (hstep : ∀ k c, Calm k c.marks → Answers k c reads (step k c)) (isLazy inside : Bool)
    {k : Continuation} (rounds least : Nat) (most last : Option Nat) (c : Cursor)
    (hk : Calm k c.marks) :
    Answers k c (Rounds reads least most)
      (loop step isLazy inside k rounds least most last c) := by
  induction rounds generalizing least most last c with
  | zero => exact Marks.Extends.refl c.marks
  | succ rounds ih =>
    -- A round followed by the rest of the loop.
    have hround : ∀ last', (least ≠ 0 ∨ most ≠ some 0) →
        Answers k c (Rounds reads least most)
          (step (loop step isLazy inside k rounds (least - 1) (most.map (· - 1)) last') c) := by
      intro last' hmore
      have hrest : ∀ d : Cursor, d.marks = c.marks →
          Answers k d (Rounds reads (least - 1) (most.map (· - 1)))
            (loop step isLazy inside k rounds (least - 1) (most.map (· - 1)) last' d) :=
        fun d hd => ih (least - 1) (most.map (· - 1)) last' d (hd ▸ hk)
      exact (hstep _ c (Answers.calm hrest)).andThen
        (fun text rest _ => hrest (c.forward text rest) rfl)
        (fun text text' h h' => Rounds.cons h h' hmore)
    unfold loop
    cases least with
    | succ n => exact hround last (Or.inl (Nat.succ_ne_zero n))
    | zero =>
      have hmore : Answers k c (Rounds reads 0 most)
          (if most == some 0 || last == some c.pos then .lost c.marks
            else step (loop step isLazy inside k rounds 0 (most.map (· - 1)) (some c.pos)) c) := by
        by_cases hend : (most == some 0 || last == some c.pos) = true
        · simp only [hend, if_true]
          exact Marks.Extends.refl c.marks
        · have hmost : most ≠ some 0 := by
            intro h
            exact hend (by simp [h])
          simp only [hend]
          exact hround (some c.pos) (Or.inr hmost)
      cases isLazy with
      | true =>
        exact Answers.orElse inside (fun d =>
          if most == some 0 || last == some c.pos then .lost d.marks
          else step (loop step true inside k rounds 0 (most.map (· - 1)) (some c.pos)) d) (k c)
          (Answers.here hk Rounds.nil) hmore
      | false =>
        -- Not by `Answers.orElse`: a greedy loop forgets what a failed round left behind.
        simp only [bne_self_eq_false, Bool.false_eq_true, if_false]
        cases h : (if (most == some 0 || last == some c.pos) = true then Outcome.lost c.marks
            else step (loop step false inside k rounds 0 (most.map (· - 1)) (some c.pos)) c) with
        | found e => rwa [h] at hmore
        | lost left => exact Answers.here hk Rounds.nil

/-- A repetition answers if its body does. -/
theorem repeatWith_answers {body : Pattern} {step : Continuation → Continuation}
    (hstep : ∀ k c, Calm k c.marks → Answers k c body.Reads (step k c)) (bound least : Nat)
    (most : Option Nat) (isLazy inside : Bool) {k : Continuation} {c : Cursor}
    (hk : Calm k c.marks) :
    Answers k c (Rounds body.Reads least most)
      (repeatWith bound body step least most isLazy inside k c) := by
  unfold repeatWith
  split
  · rename_i accepts
    cases isLazy with
    | true => exact lazyRun_answers accepts inside hk c.after least most c.before c.pos
    | false => exact greedyRun_answers accepts inside hk c.after least most c.before c.pos
  · exact loop_answers hstep isLazy inside (least + bound) least most none c hk

/-! ## Plain patterns -/

/-- A run of a plain pattern reads a text of the pattern and goes on with the marks as they were. -/
theorem run_plain {p : Pattern} (hp : p.isPlain = true) (bound : Nat) (inside : Bool)
    {k : Continuation} {c : Cursor} (hk : Calm k c.marks) :
    Answers k c p.Reads (run bound inside p k c) := by
  induction p generalizing inside k c with
  | empty => exact Answers.here hk rfl
  | one accepts =>
    unfold run
    cases hafter : c.after with
    | nil => exact Marks.Extends.refl c.marks
    | cons x rest =>
      by_cases hx : accepts x = true
      · simp only [hx, if_true]
        have hhere : Answers k ⟨x :: c.before, rest, c.pos + 1, c.marks⟩
            (fun text => text = []) _ :=
          Answers.here hk rfl
        refine Answers.afterOne hafter hhere ?_
        rintro text rfl
        exact ⟨x, hx, rfl⟩
      · simp only [hx]
        exact Marks.Extends.refl c.marks
  | seq p q ihp ihq =>
    have hpq : p.isPlain = true ∧ q.isPlain = true := by simpa [isPlain] using hp
    -- A plain pattern sets no marks, so the second part starts with those of the first.
    have hq : ∀ d : Cursor, d.marks = c.marks → Answers k d q.Reads (run bound inside q k d) :=
      fun d hd => ihq hpq.2 inside (hd ▸ hk)
    exact (ihp hpq.1 inside (Answers.calm hq)).andThen
      (fun text rest _ => hq (c.forward text rest) rfl)
      (fun text text' h h' => ⟨text, text', rfl, h, h'⟩)
  | alt p q ihp ihq =>
    have hpq : p.isPlain = true ∧ q.isPlain = true := by simpa [isPlain] using hp
    exact Answers.orElse inside (fun d => run bound inside q k d) _
      ((ihp hpq.1 inside hk).imp (fun _ h => Or.inl h))
      ((ihq hpq.2 inside hk).imp (fun _ h => Or.inr h))
  | rep p least most greed ih =>
    have hpg : p.isPlain = true ∧ greed ≠ .possessive := by simpa [isPlain] using hp
    have hstep : ∀ k c, Calm k c.marks → Answers k c p.Reads (run bound true p k c) :=
      fun k c hk => ih hpg.1 true hk
    cases greed with
    | greedy => exact repeatWith_answers hstep bound least most false inside hk
    | lazy => exact repeatWith_answers hstep bound least most true inside hk
    | possessive => exact absurd rfl hpg.2
  | group index p ih => simp [isPlain] at hp
  | back index letters => simp [isPlain] at hp
  | anchor place => simp [isPlain] at hp
  | ahead positive p ih => simp [isPlain] at hp
  | behind positive width p ih => simp [isPlain] at hp
  | atomic p ih => simp [isPlain] at hp
  | ifGroup index p q ihp ihq => simp [isPlain] at hp

/-! ## Nothing is missed -/

/-- Whether a plain pattern repeats nothing but single characters, the longest run first. -/
def isSimple : Pattern → Bool
  | .empty => true
  | .one _ => true
  | .seq p q => p.isSimple && q.isSimple
  | .alt p q => p.isSimple && q.isSimple
  | .rep (.one _) least most .greedy => most.all (fun n => decide (least ≤ n))
  | _ => false

theorem isPlain_of_isSimple {p : Pattern} (hp : p.isSimple = true) : p.isPlain = true := by
  fun_induction isSimple p with
  | case1 => rfl
  | case2 accepts => rfl
  | case3 p q ihp ihq =>
    simp only [Bool.and_eq_true] at hp
    simp [isPlain, ihp hp.1, ihq hp.2]
  | case4 p q ihp ihq =>
    simp only [Bool.and_eq_true] at hp
    simp [isPlain, ihp hp.1, ihq hp.2]
  | case5 accepts least most => rfl
  | case6 => cases hp

/-- Rounds of a single character read texts of such characters within the bounds. -/
theorem rounds_one_iff {accepts : Char → Bool} {least : Nat} {most : Option Nat}
    {text : List Char} :
    Rounds (Reads (.one accepts)) least most text ↔ (∀ x ∈ text, accepts x = true) ∧
      least ≤ text.length ∧ ∀ n, most = some n → text.length ≤ max least n := by
  constructor
  · rintro ⟨pieces, rfl, hleast, hmost, hreads⟩
    have hlength : pieces.flatten.length = pieces.length := by
      clear hleast hmost
      induction pieces with
      | nil => rfl
      | cons piece rest ih =>
        rcases hreads piece List.mem_cons_self with ⟨x, -, rfl⟩
        simpa using ih (fun p hp => hreads p (List.mem_cons_of_mem _ hp))
    refine ⟨?_, by omega, fun n hn => by rw [hlength]; exact hmost n hn⟩
    intro x hx
    rcases List.mem_flatten.1 hx with ⟨piece, hpiece, hxp⟩
    rcases hreads piece hpiece with ⟨y, hy, rfl⟩
    rwa [List.mem_singleton.1 hxp]
  · rintro ⟨hall, hleast, hmost⟩
    refine ⟨text.map (fun x => [x]), ?_, by simpa using hleast, by simpa using hmost, ?_⟩
    · clear hall hleast hmost
      induction text with
      | nil => rfl
      | cons x rest ih => simpa using ih
    · intro piece hpiece
      rcases List.mem_map.1 hpiece with ⟨x, hx, rfl⟩
      exact ⟨x, hall x hx, rfl⟩

/-- A greedy run that fails was refused after every number of characters that it may read. -/
theorem greedyRun_lost {accepts : Char → Bool} {inside : Bool} {k : Continuation} {marks : Marks}
    (hk : Calm k marks) {after : List Char} {least : Nat} {most : Option Nat} {before : List Char}
    {pos : Nat} {left : Marks}
    (hlost : greedyRun accepts inside k marks least most before pos after = .lost left)
    {text rest : List Char} (hafter : after = text ++ rest) (hall : ∀ x ∈ text, accepts x = true)
    (hleast : least ≤ text.length) (hmost : ∀ n, most = some n → text.length ≤ n) :
    ∃ left', k ((Cursor.mk before after pos marks).forward text rest) = .lost left' := by
  induction after generalizing least most before pos left text with
  | nil =>
    rcases List.append_eq_nil_iff.1 hafter.symm with ⟨rfl, rfl⟩
    have hzero : least = 0 := by simpa using hleast
    subst hzero
    exact ⟨left, hlost⟩
  | cons x after' ih =>
    unfold greedyRun at hlost
    by_cases hx : (most != some 0 && accepts x) = true
    · simp only [hx, if_true] at hlost
      have hmore := greedyRun_answers accepts inside hk after' (least - 1) (most.map (· - 1))
        (x :: before) (pos + 1)
      cases hinner : greedyRun accepts inside k marks (least - 1) (most.map (· - 1)) (x :: before)
          (pos + 1) after' with
      | found e => simp [hinner] at hlost
      | lost left' =>
        rw [hinner] at hmore
        cases text with
        | nil =>
          -- Nothing is read: this is the last way that was tried.
          have hzero : least = 0 := by simpa using hleast
          have hmarks : Marks.restore inside marks left' = marks :=
            Marks.Extends.restore hmore inside
          subst hzero
          subst hafter
          simp only [hinner, hmarks] at hlost
          exact ⟨left, hlost⟩
        | cons y text' =>
          rcases List.cons.inj hafter with ⟨rfl, rfl⟩
          have hcount : ∀ n, most.map (· - 1) = some n → text'.length ≤ n := by
            intro n hn
            rcases Option.map_eq_some_iff.1 hn with ⟨m, hm, rfl⟩
            have := hmost m hm
            simp only [List.length_cons] at this
            omega
          rcases ih hinner rfl (fun z hz => hall z (List.mem_cons_of_mem _ hz))
            (by simp only [List.length_cons] at hleast; omega) hcount with ⟨left'', h⟩
          exact ⟨left'', by simpa [Cursor.forward, Nat.add_assoc, Nat.add_comm 1] using h⟩
    · simp only [hx] at hlost
      cases text with
      | nil =>
        have hzero : least = 0 := by simpa using hleast
        subst hzero
        subst hafter
        exact ⟨left, by simpa [Cursor.forward] using hlost⟩
      | cons y text' =>
        rcases List.cons.inj hafter with ⟨rfl, rfl⟩
        refine absurd ?_ hx
        have hzero : most ≠ some 0 := by
          intro h
          simpa using hmost 0 h
        simpa [hzero] using hall x List.mem_cons_self

/-- A simple pattern that fails was refused after every text that it can read. -/
theorem run_simple_lost {p : Pattern} (hp : p.isSimple = true) {bound : Nat} {inside : Bool}
    {k : Continuation} {c : Cursor} (hk : Calm k c.marks) {left : Marks}
    (hlost : run bound inside p k c = .lost left) {text rest : List Char}
    (hafter : c.after = text ++ rest) (hreads : p.Reads text) :
    ∃ left', k (c.forward text rest) = .lost left' := by
  induction p generalizing k c left text rest with
  | empty =>
    have htext : text = [] := hreads
    subst htext
    have hrest : c.after = rest := hafter
    exact ⟨left, by rw [← hrest, Cursor.forward_nil]; exact hlost⟩
  | one accepts =>
    rcases hreads with ⟨x, hx, rfl⟩
    refine ⟨left, ?_⟩
    simpa [run, hafter, hx, Cursor.forward] using hlost
  | seq p q ihp ihq =>
    have hpq : p.isSimple = true ∧ q.isSimple = true := by simpa [isSimple] using hp
    rcases hreads with ⟨first, second, rfl, hfirst, hsecond⟩
    have hcalm : Calm (fun d => run bound inside q k d) c.marks :=
      Answers.calm (fun d hd => run_plain (isPlain_of_isSimple hpq.2) bound inside (hd ▸ hk))
    rcases ihp hpq.1 hcalm hlost (by rw [hafter, List.append_assoc]) hfirst with ⟨left', hq⟩
    rcases ihq (c := c.forward first (second ++ rest)) hpq.2 hk hq rfl hsecond with ⟨left'', h⟩
    exact ⟨left'', by rw [← Cursor.forward_forward]; exact h⟩
  | alt p q ihp ihq =>
    have hpq : p.isSimple = true ∧ q.isSimple = true := by simpa [isSimple] using hp
    have hplain := run_plain (isPlain_of_isSimple hpq.1) bound inside hk
    unfold run at hlost
    cases hrun : run bound inside p k c with
    | found e => simp [hrun] at hlost
    | lost left' =>
      -- The first alternative leaves the marks to the second as it found them.
      rw [hrun] at hplain
      have hmarks : Marks.restore inside c.marks left' = c.marks :=
        Marks.Extends.restore hplain inside
      rcases hreads with hreads | hreads
      · exact ihp hpq.1 hk hrun hafter hreads
      · exact ihq hpq.2 hk (by simpa [hrun, hmarks] using hlost) hafter hreads
  | rep p least most greed ih =>
    cases p with
    | one accepts =>
      cases greed with
      | greedy =>
        have hbounds : ∀ n, most = some n → least ≤ n := by
          rintro n rfl
          simpa [isSimple] using hp
        rcases rounds_one_iff.1 hreads with ⟨hall, hleast, hmost⟩
        refine greedyRun_lost hk hlost hafter hall hleast (fun n hn => ?_)
        have h1 := hmost n hn
        have h2 := hbounds n hn
        omega
      | lazy => simp [isSimple] at hp
      | possessive => simp [isSimple] at hp
    | _ => simp [isSimple] at hp
  | group index p ih => simp [isSimple] at hp
  | back index letters => simp [isSimple] at hp
  | anchor place => simp [isSimple] at hp
  | ahead positive p ih => simp [isSimple] at hp
  | behind positive width p ih => simp [isSimple] at hp
  | atomic p ih => simp [isSimple] at hp
  | ifGroup index p q ihp ihq => simp [isSimple] at hp

/-! ## Building blocks -/

/-- A character reads itself alone. -/
@[simp] theorem reads_char {c : Char} {text : List Char} : (char c).Reads text ↔ text = [c] := by
  simp [char, Reads]

/-- Many characters read every text of them, also the empty one. -/
@[simp] theorem reads_many {accepts : Char → Bool} {text : List Char} :
    (many accepts).Reads text ↔ ∀ x ∈ text, accepts x = true := by
  refine rounds_one_iff.trans ?_
  simp

/-- At least one character has to be read. -/
@[simp] theorem reads_many1 {accepts : Char → Bool} {text : List Char} :
    (many1 accepts).Reads text ↔ (∀ x ∈ text, accepts x = true) ∧ text ≠ [] := by
  refine rounds_one_iff.trans ?_
  simp [Nat.one_le_iff_ne_zero]

/-- Literal characters read themselves alone. -/
theorem reads_literalChars (chars text : List Char) :
    (literalChars chars).Reads text ↔ text = chars := by
  fun_induction literalChars chars generalizing text with
  | case1 => exact Iff.rfl
  | case2 c => simp [Reads]
  | case3 c rest hrest ih =>
    constructor
    · rintro ⟨first, second, rfl, ⟨x, hx, rfl⟩, hsecond⟩
      have hx' : x = c := by simpa using hx
      rw [hx', (ih second).1 hsecond]
      rfl
    · rintro rfl
      exact ⟨[c], rest, rfl, ⟨c, by simp, rfl⟩, (ih rest).2 rfl⟩

theorem isPlain_literalChars (chars : List Char) : (literalChars chars).isPlain = true := by
  fun_induction literalChars chars with
  | case1 => rfl
  | case2 c => rfl
  | case3 c rest hrest ih => simpa [isPlain] using ih

@[simp] theorem reads_literal {s : String} {text : List Char} :
    (literal s).Reads text ↔ text = s.toList :=
  reads_literalChars s.toList text

end Pattern
end JavaDeps
