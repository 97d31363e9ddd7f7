import JavaDeps.Session

/-!
# Ports

A server listens on the first port that is not refused, from a given one on. Above the last port it
gives up after the first one that it tried. An attempt that fails in another way ends the search.
-/

namespace JavaDeps

def lastPort : Int := 8100

/-- The outcome of a search: the ports that were tried, the port at the end, and what the last
attempt came to. -/
structure PortSearch where
  tried : List Int
  port : Int
  last : Binding
  deriving DecidableEq, Repr

/-- Tries a port. The answer is the outcome, or the port to be tried next. -/
def tryPort (ports : Int → Binding) (port : Int) : PortSearch ⊕ Int :=
  match ports port with
  | .refused => if lastPort < port + 1 then .inl ⟨[port], port + 1, .refused⟩ else .inr (port + 1)
  | binding => .inl ⟨[port], port, binding⟩

/-- The search goes on from a refused port to the next one, which is not above the last one. -/
theorem tryPort_eq_inr_iff {ports : Int → Binding} {port next : Int} :
    tryPort ports port = .inr next ↔
      ports port = .refused ∧ next = port + 1 ∧ next ≤ lastPort := by
  unfold tryPort
  grind

def searchPorts (ports : Int → Binding) (port : Int) : PortSearch :=
  match _h : tryPort ports port with
  | .inl search => search
  | .inr next =>
    let rest := searchPorts ports next
    { rest with tried := port :: rest.tried }
termination_by (lastPort - port).toNat
decreasing_by
  have hnext := tryPort_eq_inr_iff.1 _h
  omega

end JavaDeps
