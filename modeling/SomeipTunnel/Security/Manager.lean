import SomeipTunnel.Lib.Run
import SomeipTunnel.Security.Policy

/-!
# The policy manager

`policy_manager_impl` keeps the policies of a process and answers whether a client may access a
member of a service (`is_client_allowed`). Positive answers are kept in `is_client_allowed_cache_`,
under the client's user and group and the triple of service, instance and method. Policies are
loaded, extended, added and removed at run time.

A policy is held by value; that two entries of `any_client_policies_` share one object is left out,
as are the locks and the log. `load_policy` is given the policy that the configuration tree
describes. Where a loop of the source does not end, the model has the fault `hangs`.
-/

namespace SomeipTunnel.Security

open Icl Containers

/-- Source: `constants.hpp`, `ANY_METHOD` -/
def anyMethod : ℕ := 0xFFFF

/-- Source: `vsomeip_sec.h`, `VSOMEIP_SEC_PORT_UNUSED` -/
def secPortUnused : ℕ := 0

/-- Source: `vsomeip_sec.h`, `vsomeip_sec_client_t` -/
structure SecClient where
  user : ℕ
  group : ℕ
  port : ℕ
deriving DecidableEq, Repr

/-- What the cache and the policies are asked about. -/
structure Access where
  service : ℕ
  inst : ℕ
  method : ℕ
deriving DecidableEq, Repr

variable [Containers]

/-- Source: `policy_manager_impl.hpp`, `policy_manager_impl` -/
structure Manager where
  policyEnabled : Bool
  checkCredentials : Bool
  anyClientPolicies : List Policy
  /-- `is_client_allowed_cache_`, flat: the pairs of credentials and key that it contains. -/
  isClientAllowedCache : List ((ℕ × ℕ) × Access)

/-! ### Answering -/

/-- Whether a policy gives the access to the user and group.
Source: `policy_manager_impl.cpp`, `is_client_allowed`, the body of the loop over the policies -/
def Policy.grants (p : Policy) (credentials : ℕ × ℕ) (key : Access) (isRequestService : Bool) :
    Bool :=
  let hasId := p.hasUidGid credentials.1 credentials.2
  let isMatching := p.isMatching key.service key.inst key.method isRequestService
  if (hasId && p.allowWho) || (!hasId && !p.allowWho) then
    if p.allowWhat then isMatching
    else (!isMatching && key.method != anyMethod) ||
      (!isMatching && key.method == anyMethod && (segments p.requests).isEmpty)
  else false

namespace Manager

/-- Source: `policy_manager_impl.cpp`, `is_client_allowed` -/
def isClientAllowed (m : Manager) (secClient : Option SecClient) (key : Access)
    (isRequestService : Bool) : Bool × Manager :=
  if !m.policyEnabled then (true, m)
  else
    match secClient with
    | none => (!m.checkCredentials, m)
    | some c =>
        if c.port ≠ secPortUnused then (true, m)
        else
          let itsCredentials := (c.user, c.group)
          if (itsCredentials, key) ∈ m.isClientAllowedCache then (true, m)
          else if m.anyClientPolicies.any (·.grants itsCredentials key isRequestService) then
            (true, { m with isClientAllowedCache := (itsCredentials, key) :: m.isClientAllowedCache })
          else (!m.checkCredentials, m)

/-- What the policies alone answer: `is_client_allowed` without its cache. -/
def evaluate (m : Manager) (secClient : Option SecClient) (key : Access)
    (isRequestService : Bool) : Bool :=
  if !m.policyEnabled then true
  else
    match secClient with
    | none => !m.checkCredentials
    | some c =>
        c.port ≠ secPortUnused ||
          m.anyClientPolicies.any (·.grants (c.user, c.group) key isRequestService) ||
          !m.checkCredentials

/-! ### Changing the policies -/

/-- Ways in which a call does not come back. -/
inductive Fault
  | hangs
deriving DecidableEq, Repr

/-- Source: `policy_manager_impl.cpp`, `is_client_allowed_cache_.erase` -/
def eraseCache (m : Manager) (uid gid : ℕ) : Manager :=
  { m with isClientAllowedCache := m.isClientAllowedCache.filter (·.1 ≠ (uid, gid)) }

/-- Source: `policy_manager_impl.cpp`, `exist_in_any_client_policies_unlocked` -/
def existInAnyClientPoliciesUnlocked (m : Manager) (policy : Policy) : Bool :=
  m.anyClientPolicies.any fun p =>
    p.credentials == policy.credentials && p.requests == policy.requests &&
      p.offers == policy.offers && p.allowWhat == policy.allowWhat && p.allowWho == policy.allowWho

/-- Source: `policy_manager_impl.cpp`, `load_policy` -/
def loadPolicy (m : Manager) (policy : Policy) : Manager :=
  if m.existInAnyClientPoliciesUnlocked policy then m
  else { m with anyClientPolicies := m.anyClientPolicies ++ [policy] }

/-- Source: `policy_manager_impl.cpp`, `remove_security_policy`; only policies that allow
credentials are removed, and the cache is erased in the loop over the policies -/
def removeSecurityPolicy (m : Manager) (uid gid : ℕ) : Bool × Manager :=
  if m.anyClientPolicies.isEmpty then (false, m)
  else
    let isMatching := fun p : Policy => p.hasUidGid uid gid && p.allowWho
    (m.anyClientPolicies.any isMatching,
      { m with anyClientPolicies := m.anyClientPolicies.filter (!isMatching ·) }.eraseCache uid gid)

/-- The credentials are the one user and group, with closed bounds.
Source: `policy_manager_impl.cpp`, `update_security_policy`, the search for the matching policy -/
def isSingle (p : Policy) (uid gid : ℕ) : Bool :=
  p.credentials.size == 1 &&
    match segments p.credentials with
    | [] => false
    | itsUids :: _ =>
        itsUids.1.lower == uid && itsUids.1.upper == uid && itsUids.2.size == 1 &&
          match segments itsUids.2 with
          | [] => false
          | itsGids :: _ => itsGids.1.lower == gid && itsGids.1.upper == gid

/-- Add the value for each service of the interval by itself.
Source: `policy_manager_impl.cpp`, `update_security_policy`, `for (auto s = its_lower; ...)` -/
def forServices {α : Type*} (interval : Interval) (plus : α → Interval → α) (acc : α) : α :=
  let bounds := getBounds interval
  (List.range' bounds.1 (bounds.2 + 1 - bounds.1)).foldl (fun acc s => plus acc (.closed s s)) acc

/-- The loop variable has 16 bits, so that a loop up to the largest service does not end. -/
def hangs (policy : Policy) : Bool :=
  (segments policy.requests).any (fun r => (getBounds r.1).2 == 0xFFFF) ||
    (segments policy.offers).any (fun o => (getBounds o.1).2 == 0xFFFF)

/-- The matching policy with the requests and offers of the new one.
Source: `policy_manager_impl.cpp`, `update_security_policy`, `if (its_matching_policy)` -/
def mergePolicy (itsMatching policy : Policy) : Policy :=
  { itsMatching with
    requests := (segments policy.requests).foldl
      (fun acc r => forServices r.1 (fun acc s => add acc s r.2) acc) itsMatching.requests,
    offers := (segments policy.offers).foldl
      (fun acc o => forServices o.1 (fun acc s => add acc s o.2) acc) itsMatching.offers }

/-- Source: `policy_manager_impl.cpp`, `update_security_policy` -/
def updateSecurityPolicy (m : Manager) (uid gid : ℕ) (policy : Policy) : Except Fault Manager :=
  let other := fun p : Policy => !(isSingle p uid gid && p.allowWho == policy.allowWho)
  match m.anyClientPolicies.dropWhile other with
  | [] => .ok ({ m with anyClientPolicies := m.anyClientPolicies ++ [policy] }.eraseCache uid gid)
  | itsMatchingPolicy :: rest =>
      let policies :=
        m.anyClientPolicies.takeWhile other ++ mergePolicy itsMatchingPolicy policy :: rest
      if hangs policy then .error .hangs
      else .ok ({ m with anyClientPolicies := policies }.eraseCache uid gid)

/-- Source: `policy_manager_impl.cpp`, `add_security_credentials` -/
def addSecurityCredentials (m : Manager) (uid gid : ℕ) (policy : Policy) : Manager :=
  if m.anyClientPolicies.any fun p => p.hasUidGid uid gid && p.allowWho then m
  else { m with anyClientPolicies := m.anyClientPolicies ++ [policy] }

/-! ### Runs -/

/-- The calls. -/
inductive Call
  | loadPolicy (policy : Policy)
  | updateSecurityPolicy (uid gid : ℕ) (policy : Policy)
  | addSecurityCredentials (uid gid : ℕ) (policy : Policy)
  | removeSecurityPolicy (uid gid : ℕ)
  | isClientAllowed (secClient : Option SecClient) (key : Access) (isRequestService : Bool)

/-- One call, with its answer. -/
def step (m : Manager) : Call → Except Fault (Option Bool × Manager)
  | .loadPolicy policy => .ok (none, m.loadPolicy policy)
  | .updateSecurityPolicy uid gid policy =>
      (m.updateSecurityPolicy uid gid policy).map fun m' => (none, m')
  | .addSecurityCredentials uid gid policy => .ok (none, m.addSecurityCredentials uid gid policy)
  | .removeSecurityPolicy uid gid =>
      let out := m.removeSecurityPolicy uid gid
      .ok (some out.1, out.2)
  | .isClientAllowed secClient key isRequestService =>
      let out := m.isClientAllowed secClient key isRequestService
      .ok (some out.1, out.2)

end Manager

/-! ### What a merged policy contains -/

section merge

variable {matching policy : Policy}

omit [Containers] in
/-- What the loop over the services of an interval collects. -/
theorem forServices_collects {α : Type*} {plus : α → Interval → α} {P : α → Prop} {Q : Prop}
    {I : Interval} {s : ℕ} (hI : Proper 16 I)
    (h : ∀ a t, t < 2 ^ 16 → (P (plus a (.closed t t)) ↔ P a ∨ s = t ∧ Q)) (a : α) :
    P (Manager.forServices I plus a) ↔ P a ∨ I.Contains s ∧ Q := by
  obtain ⟨h₁, h₂⟩ := getBounds_spec hI
  have hup := hI.2
  have hstop := I.stop_le
  refine (Loop.foldl_collects (fun b t ht => h b t ?_) a).trans (or_congr_right ?_)
  · have := List.mem_range'_1.mp ht
    omega
  · simp only [List.mem_range'_1, Interval.Contains]
    constructor
    · rintro ⟨t, ht, rfl, hQ⟩
      exact ⟨by omega, hQ⟩
    · rintro ⟨hs, hQ⟩
      exact ⟨s, by omega, rfl, hQ⟩

/-- The requests of a merged policy are those of both. -/
theorem has₃_mergePolicy (s n k : ℕ) :
    (Manager.mergePolicy matching policy).requests.has₃ s n k = true ↔
      matching.requests.has₃ s n k = true ∨ policy.requests.has₃ s n k = true := by
  rw [IntervalMap.has₃_iff (m := policy.requests)]
  refine Loop.foldl_collects (P := fun q : Requests => q.has₃ s n k = true)
    (fun a r hr => ?_) matching.requests
  refine forServices_collects (P := fun q : Requests => q.has₃ s n k = true)
    (proper_of_mem hr) (fun b t ht => ?_) a
  rw [IntervalMap.has₃_add (proper_single ht), Bool.or_eq_true, Bool.and_eq_true,
    decide_eq_true_iff, Interval.contains_single]

/-- The same for the instances alone. -/
theorem has₂_mergePolicy (s n : ℕ) :
    (Manager.mergePolicy matching policy).requests.has₂ s n = true ↔
      matching.requests.has₂ s n = true ∨ policy.requests.has₂ s n = true := by
  simp only [IntervalMap.has₂_iff_exists, has₃_mergePolicy, exists_or]

/-- The offers of a merged policy are those of both. -/
theorem has₂_offers_mergePolicy (s n : ℕ) :
    (Manager.mergePolicy matching policy).offers.has₂ s n = true ↔
      matching.offers.has₂ s n = true ∨ policy.offers.has₂ s n = true := by
  rw [IntervalMap.has₂_iff (m := policy.offers)]
  refine Loop.foldl_collects (P := fun q : SetMap 16 => q.has₂ s n = true)
    (fun a o ho => ?_) matching.offers
  refine forServices_collects (P := fun q : SetMap 16 => q.has₂ s n = true)
    (proper_of_mem ho) (fun b t ht => ?_) a
  rw [IntervalMap.has₂_add (proper_single ht), Bool.or_eq_true, Bool.and_eq_true,
    decide_eq_true_iff, Interval.contains_single]

end merge

end SomeipTunnel.Security
