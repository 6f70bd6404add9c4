import SomeipTunnel.Lib.IntervalMap

/-!
# Security policies

A policy names clients by intervals of user and group identifiers (`credentials_`, `allow_who_`) and
what they may request or offer by intervals of service, instance and method identifiers
(`requests_`, `offers_`, `allow_what_`). The containers are those of Boost.ICL, which is not part of
the repository: they are a parameter, by the laws of `Icl.Containers`. User and group identifiers
have 32 bits, the others 16. The mutex of a policy is left out.

`getBounds_spec` says that `get_bounds` gives the first and the last number of an interval that is
not empty, whatever the types of its bounds.
-/

namespace SomeipTunnel.Security

open Icl Containers

/-! ### Containers -/

/-- `interval_map<instance_t, interval_set<method_t>>`, also `interval_map<uid_t,
interval_set<gid_t>>` with 32 bits. -/
abbrev SetMap [Containers] (w : ℕ) := IntervalMap w (IntervalSet w)

/-- Source: `policy.hpp`, the type of `requests_` -/
abbrev Requests [Containers] := IntervalMap 16 (SetMap 16)

/-! ### Bounds -/

/-- The first and the last number of an interval, in 16-bit arithmetic.
Source: `policy.hpp`, `get_bounds` -/
def getBounds (interval : Interval) : ℕ × ℕ :=
  match interval.lowerOpen, interval.upperOpen with
  | true, true => ((interval.lower + 1) % 2 ^ 16, (interval.upper + 2 ^ 16 - 1) % 2 ^ 16)
  | true, false => ((interval.lower + 1) % 2 ^ 16, interval.upper)
  | false, true => (interval.lower, (interval.upper + 2 ^ 16 - 1) % 2 ^ 16)
  | false, false => (interval.lower, interval.upper)

/-- **The bounds of an interval that is not empty**: its first number and its last one. -/
theorem getBounds_spec {I : Interval} (h : Proper 16 I) :
    (getBounds I).1 = I.start ∧ (getBounds I).2 + 1 = I.stop := by
  obtain ⟨hne, hup⟩ := h
  obtain ⟨lower, upper, lowerOpen, upperOpen⟩ := I
  unfold Interval.start Interval.stop at hne ⊢
  cases lowerOpen <;> cases upperOpen
  all_goals
    dsimp only at hup
    simp only [Bool.false_eq_true, ↓reduceIte] at hne
    refine ⟨?_, ?_⟩ <;> simp [getBounds] <;> omega

/-! ### Policies -/

/-- Source: `policy.hpp`, `policy` -/
structure Policy [Containers] where
  credentials : SetMap 32
  allowWho : Bool
  requests : Requests
  offers : SetMap 16
  allowWhat : Bool

namespace Policy

variable [Containers]

/-- Source: `policy::policy` -/
def default : Policy := ⟨empty, false, empty, empty, false⟩

/-- The search for a user and a group that every check starts with (`has_uid && has_gid`).
Source: `policy_manager_impl.cpp`, `is_client_allowed`, `remove_security_policy`,
`add_security_credentials` -/
def hasUidGid (p : Policy) (uid gid : ℕ) : Bool := p.credentials.has₂ uid gid

/-- Whether a policy's requests contain what is asked for. A request for a service asks for the
instance only.
Source: `policy_manager_impl.cpp`, `is_client_allowed`, `is_matching` -/
def isMatching (p : Policy) (service inst method : ℕ) (isRequestService : Bool) : Bool :=
  if isRequestService then p.requests.has₂ service inst else p.requests.has₃ service inst method

end Policy

end SomeipTunnel.Security
