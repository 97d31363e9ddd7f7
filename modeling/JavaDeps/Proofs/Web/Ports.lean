import Mathlib.Order.Bounds.Basic
import JavaDeps.Web.Port

/-!
# The search for a port

Whatever becomes of the attempts to listen on ports, the search for a port ends, and it ends at the
least port at which it can. From a port number on, the server then listens on this port; other
numbers are not ports, and the first attempt decides.
-/

namespace JavaDeps

variable {ports : Int → Binding} {first : Int}

def openPorts (ports : Int → Binding) (first : Int) : Set Int :=
  {port | first ≤ port ∧ ports port ≠ .refused ∧ (port ≤ lastPort ∨ port = first)}

/-- A search has ended at the least port at which it can, with what the attempt there came to, after
it tried all ports up to this one once; or there is none, and it was given up behind the last port.
-/
def PortSearch.Answers (search : PortSearch) (ports : Int → Binding) (first : Int) : Prop :=
  (IsLeast (openPorts ports first) search.port ∧ search.last = ports search.port ∧
      ∀ port, search.tried.count port = if first ≤ port ∧ port ≤ search.port then 1 else 0) ∨
    (openPorts ports first = ∅ ∧ search.last = .refused ∧ search.port = max (first + 1) 8101)

/-- After a refused port the next one is tried, if it is a port. -/
theorem tryPort_of_refused (h : ports first = .refused) :
    tryPort ports first =
      if lastPort < first + 1 then .inl ⟨[first], first + 1, .refused⟩ else .inr (first + 1) := by
  unfold tryPort
  rw [h]

/-- The search ends at a port that is not refused. -/
theorem tryPort_of_not_refused (h : ports first ≠ .refused) :
    tryPort ports first = .inl ⟨[first], first, ports first⟩ := by
  unfold tryPort
  split
  · exact absurd ‹_› h
  · rfl

/-- A step that ends the search answers as described. -/
theorem answers_of_tryPort {search : PortSearch} (h : tryPort ports first = .inl search) :
    search.Answers ports first := by
  by_cases hrefused : ports first = .refused
  · rw [tryPort_of_refused hrefused] at h
    split at h
    · rename_i hlast
      cases h
      refine Or.inr ⟨Set.eq_empty_iff_forall_notMem.2 ?_, rfl, ?_⟩
      · rintro port ⟨hfirst, hopen, hport⟩
        have heq : port = first := by omega
        exact hopen (heq ▸ hrefused)
      · simp only [lastPort] at hlast ⊢
        omega
    · cases h
  · rw [tryPort_of_not_refused hrefused] at h
    cases h
    refine Or.inl ⟨⟨⟨Int.le_refl _, hrefused, Or.inr rfl⟩, fun _ h => h.1⟩, rfl, fun port => ?_⟩
    rw [List.count_singleton]
    grind

/-- A refused port is passed over. -/
theorem answers_cons {next : Int} {rest : PortSearch} (h : tryPort ports first = .inr next)
    (hrest : rest.Answers ports next) :
    PortSearch.Answers { rest with tried := first :: rest.tried } ports first := by
  rcases tryPort_eq_inr_iff.1 h with ⟨hrefused, rfl, hlast⟩
  have hopen : openPorts ports first = openPorts ports (first + 1) := by
    ext port
    have hne : ports port ≠ .refused → port ≠ first := by
      rintro hport rfl
      exact hport hrefused
    simp only [openPorts, Set.mem_ofPred_eq]
    grind
  rcases hrest with ⟨hleast, hlistening, htried⟩ | ⟨hnone, hlistening, hport⟩
  · refine Or.inl ⟨hopen ▸ hleast, hlistening, fun port => ?_⟩
    have hfound : first + 1 ≤ rest.port := hleast.1.1
    rw [List.count_cons, htried]
    grind
  · refine Or.inr ⟨hopen ▸ hnone, hlistening, ?_⟩
    simp only [lastPort] at hlast
    simp only [hport]
    omega

/-- For every first number, the search ends: there is no endless sequence of rounds. -/
theorem searchPorts_answers (ports : Int → Binding) (first : Int) :
    Acc (fun next port => tryPort ports port = .inr next) first ∧
      (searchPorts ports first).Answers ports first := by
  fun_induction searchPorts ports first with
  | case1 first search h =>
    refine ⟨⟨first, fun next hnext => ?_⟩, answers_of_tryPort h⟩
    rw [h] at hnext
    cases hnext
  | case2 first next h rest ih =>
    refine ⟨⟨first, fun next' hnext => ?_⟩, answers_cons h ih.2⟩
    rw [h] at hnext
    cases hnext
    exact ih.1

/-- A first port that is not refused is the only one tried. -/
theorem searchPorts_of_not_refused (h : ports first ≠ .refused) :
    searchPorts ports first = ⟨[first], first, ports first⟩ := by
  rw [searchPorts]
  split
  · rename_i search hsearch
    rw [tryPort_of_not_refused h] at hsearch
    exact (Sum.inl.inj hsearch).symm
  · rename_i next hnext
    exact absurd (tryPort_eq_inr_iff.1 hnext).1 h

/-- How listening comes out: a port is taken, or something listens on it; for the number 0 some port
is chosen; and a number that belongs to no port is an error of its own. -/
structure ListensAsBound (ports : Int → Binding) : Prop where
  port : ∀ p, 1 ≤ p → p ≤ 65535 → ports p = .refused ∨ ports p = .listens p
  zero : ports 0 = .refused ∨ ∃ p, 1 ≤ p ∧ p ≤ 65535 ∧ ports 0 = .listens p
  outside : ∀ p, p < 0 ∨ 65535 < p → ∃ e, ports p = .fails e

/-- For every first number and every set of refused ports the search ends, at the least port that is
not refused up to the last one, or at the first one, after every port up to there was tried once. If
there is no such port, it is given up behind both. If the first number is a port, the server listens
on the port at which the search ends, unless it is given up. For the number 0 it listens on some
other port, and a number that belongs to no port is an error. -/
theorem port_search_least (ports : Int → Binding) (hports : ListensAsBound ports) (first : Int) :
    Acc (fun next port => tryPort ports port = .inr next) first ∧
      (searchPorts ports first).Answers ports first ∧
      (1 ≤ first → first ≤ 65535 →
        (searchPorts ports first).last = .listens (searchPorts ports first).port ∨
          openPorts ports first = ∅ ∧ (searchPorts ports first).last = .refused) ∧
      (first = 0 → ports 0 ≠ .refused →
        ∃ p, 1 ≤ p ∧ p ≤ 65535 ∧ searchPorts ports first = ⟨[0], 0, .listens p⟩) ∧
      (first < 0 ∨ 65535 < first →
        ∃ e, searchPorts ports first = ⟨[first], first, .fails e⟩) := by
  rcases searchPorts_answers ports first with ⟨hends, hanswers⟩
  refine ⟨hends, hanswers, fun hlow hhigh => ?_, ?_, fun houtside => ?_⟩
  · rcases hanswers with ⟨⟨⟨hfirst, hopen, hlast⟩, -⟩, hlistening, -⟩ | ⟨hnone, hlistening, -⟩
    · rw [hlistening]
      -- The search ends at a port again, since the last port is one.
      have hhigh' : (searchPorts ports first).port ≤ 65535 := by
        simp only [lastPort] at hlast
        omega
      exact Or.inl ((hports.port _ (by omega) hhigh').resolve_left hopen)
    · exact Or.inr ⟨hnone, hlistening⟩
  · rintro rfl hzero
    rcases hports.zero.resolve_left hzero with ⟨p, hlow, hhigh, hp⟩
    exact ⟨p, hlow, hhigh, hp ▸ searchPorts_of_not_refused hzero⟩
  · rcases hports.outside first houtside with ⟨e, he⟩
    have hopen : ports first ≠ .refused := by
      rw [he]
      exact nofun
    exact ⟨e, he ▸ searchPorts_of_not_refused hopen⟩

def takenPorts (port : Int) : Binding :=
  if port < 0 ∨ 65535 < port then .fails .noPort
  else if port = 8000 ∨ port = 8001 then .refused
  else if port = 0 then .listens 49152
  else .listens port

theorem listensAsBound_takenPorts : ListensAsBound takenPorts where
  port p hlow hhigh := by
    unfold takenPorts
    split_ifs <;> first | omega | simp
  zero := Or.inr ⟨49152, by decide, by decide, by decide⟩
  outside p h := ⟨.noPort, if_pos h⟩

theorem takenPorts_search :
    ListensAsBound takenPorts ∧
      (searchPorts takenPorts 8000).last = .listens (searchPorts takenPorts 8000).port ∧
      IsLeast (openPorts takenPorts 8000) (searchPorts takenPorts 8000).port ∧
      ∃ e, searchPorts takenPorts 70000 = ⟨[70000], 70000, .fails e⟩ := by
  rcases port_search_least takenPorts listensAsBound_takenPorts 8000 with
    ⟨-, hanswers, hport, -, -⟩
  rcases port_search_least takenPorts listensAsBound_takenPorts 70000 with ⟨-, -, -, -, houtside⟩
  have hopen : 8002 ∈ openPorts takenPorts 8000 := ⟨by decide, by decide, Or.inl (by decide)⟩
  have hsome : openPorts takenPorts 8000 ≠ ∅ := Set.nonempty_iff_ne_empty.1 ⟨8002, hopen⟩
  refine ⟨listensAsBound_takenPorts, ?_, ?_, houtside (Or.inr (by decide))⟩
  · exact (hport (by decide) (by decide)).resolve_right (fun h => hsome h.1)
  · exact (hanswers.resolve_right (fun h => hsome h.1)).1

end JavaDeps
