import SomeipTunnel.Security.Policy

/-!
# Requester policies

`get_requester_policies` is to say for a policy which of the others request what it offers, and to
derive from each of those a policy with the common part. Its loops compare the offered instances
with the *methods* of a request (`i` with `k`), where the instances of the request (`j.first`) were
meant; all three are 16-bit identifiers.

* `has₃_requesterRequests`: what the derived policy contains, and `requesterPolicy_eq_some_iff`:
  when there is one.
* `requesters_exact_iff`: the derived policies are the join of offers and requests iff, for the
  offered instances, the request reads the same with methods in the place of instances.
-/

namespace SomeipTunnel.Security

open Icl Containers IntervalMap

section containers

variable [Containers]

/-! ### The loops -/

/-- The innermost body of the loops: offer `o` and request `r` with their services, `i` an interval
of offered instances, `j` an entry of the request and `k` an interval of its methods.
Source: `policy_manager_impl.cpp`, `get_requester_policies`, the loop over `k` -/
def joinInstances (serviceMin serviceMax : ℕ) (i : Interval) (j : Interval × IntervalSet 16)
    (requests : Requests) (k : Interval × Unit) : Requests :=
  let itsI := getBounds i
  let itsK := getBounds k.1
  if itsI.1 ≤ itsK.2 ∧ itsK.1 ≤ itsI.2 then
    let instanceMin := max itsI.1 itsK.1
    let instanceMax := min itsI.2 itsK.2
    let itsInstancesMethods : SetMap 16 := add empty (.closed instanceMin instanceMax) j.2
    add requests (.closed serviceMin serviceMax) itsInstancesMethods
  else requests

/-- Source: `policy_manager_impl.cpp`, `get_requester_policies`, the body of the loop over `r` -/
def joinRequest (o : Interval × IntervalSet 16) (requests : Requests)
    (r : Interval × SetMap 16) : Requests :=
  let itsO := getBounds o.1
  let itsR := getBounds r.1
  if itsO.1 ≤ itsR.2 ∧ itsR.1 ≤ itsO.2 then
    let serviceMin := max itsO.1 itsR.1
    let serviceMax := min itsR.2 itsO.2
    (segments o.2).foldl (fun acc i =>
      (segments r.2).foldl (fun acc j =>
        (segments j.2).foldl (joinInstances serviceMin serviceMax i.1 j) acc) acc) requests
  else requests

/-- The requests of the policy that is derived from `p` for the offer `o`.
Source: `policy_manager_impl.cpp`, `get_requester_policies`, the loop over `r` -/
def requesterRequests (o : Interval × IntervalSet 16) (p : Policy) : Requests :=
  (segments p.requests).foldl (joinRequest o) empty

/-- The policy derived from `p` for the offer `o`, if it requests anything.
Source: `policy_manager_impl.cpp`, `get_requester_policies`, the body of the loop over `p` -/
def requesterPolicy (o : Interval × IntervalSet 16) (p : Policy) : Option Policy :=
  let itsPolicy : Policy :=
    { Policy.default with credentials := p.credentials, requests := requesterRequests o p }
  if (segments itsPolicy.requests).isEmpty then none else some itsPolicy

/-- A shared policy: its address and its contents. -/
structure PolicyRef where
  address : ℕ
  policy : Policy

/-- The derived policies, each with the policy that it is derived from.
Source: `policy_manager_impl.cpp`, `get_requester_policies` -/
def getRequesterPolicies (policy : PolicyRef) (anyClientPolicies : List PolicyRef) :
    List (PolicyRef × Policy) :=
  (segments policy.policy.offers).flatMap fun o =>
    anyClientPolicies.filterMap fun p =>
      if p.address = policy.address then none
      else (requesterPolicy o p.policy).map fun itsPolicy => (p, itsPolicy)

/-! ### What the loops collect -/

section loops

variable {o : Interval × IntervalSet 16} {r : Interval × SetMap 16} {i : Interval}
  {j : Interval × IntervalSet 16} {k : Interval × Unit} {serviceMin serviceMax : ℕ}

omit [Containers] in
/-- The overlap of two intervals by their bounds. -/
theorem overlap_iff {I J : Interval} (hI : Proper 16 I) (hJ : Proper 16 J) {x : ℕ} :
    ((getBounds I).1 ≤ (getBounds J).2 ∧ (getBounds J).1 ≤ (getBounds I).2) ∧
        (Interval.closed (max (getBounds I).1 (getBounds J).1)
          (min (getBounds I).2 (getBounds J).2)).Contains x ↔ I.Contains x ∧ J.Contains x := by
  obtain ⟨hI₁, hI₂⟩ := getBounds_spec hI
  obtain ⟨hJ₁, hJ₂⟩ := getBounds_spec hJ
  simp only [Interval.Contains, Interval.start_closed, Interval.stop_closed]
  omega

omit [Containers] in
/-- The overlap of two intervals that share a number is an interval of the same width. -/
theorem proper_overlap {I J : Interval} (hI : Proper 16 I) (hJ : Proper 16 J)
    (h : (getBounds I).1 ≤ (getBounds J).2 ∧ (getBounds J).1 ≤ (getBounds I).2) :
    Proper 16 (.closed (max (getBounds I).1 (getBounds J).1)
      (min (getBounds I).2 (getBounds J).2)) := by
  obtain ⟨hI₁, hI₂⟩ := getBounds_spec hI
  obtain ⟨hJ₁, hJ₂⟩ := getBounds_spec hJ
  have h₁ := hI.1
  have h₂ := hJ.1
  have h₃ := hI.2
  have h₄ := I.stop_le
  refine ⟨?_, ?_⟩
  · simp only [Interval.start_closed, Interval.stop_closed]
    omega
  · simp only [Interval.closed]
    omega

theorem has₃_joinInstances (hi : Proper 16 i) (hk : Proper 16 k.1)
    (hs : Proper 16 (.closed serviceMin serviceMax)) (requests : Requests) (s n m : ℕ) :
    (joinInstances serviceMin serviceMax i j requests k).has₃ s n m = true ↔
      requests.has₃ s n m = true ∨ (Interval.closed serviceMin serviceMax).Contains s ∧
        (i.Contains n ∧ k.1.Contains n) ∧ j.2.has m = true := by
  unfold joinInstances
  rw [← overlap_iff hi hk]
  dsimp only
  split_ifs with h
  · rw [has₃_add hs, Bool.or_eq_true, Bool.and_eq_true, decide_eq_true_iff,
      has₂_add (proper_overlap hi hk h), has₂_empty, Bool.false_or,
      Bool.and_eq_true, decide_eq_true_iff]
    simp only [h, true_and, and_self]
  · simp only [h, false_and, and_false, or_false]

/-- What the loop over the methods of `j` adds. -/
theorem has₃_foldl_joinInstances (hi : Proper 16 i)
    (hs : Proper 16 (.closed serviceMin serviceMax)) (requests : Requests) (s n m : ℕ) :
    ((segments j.2).foldl (joinInstances serviceMin serviceMax i j) requests).has₃ s n m = true ↔
      requests.has₃ s n m = true ∨ (Interval.closed serviceMin serviceMax).Contains s ∧
        i.Contains n ∧ j.2.has n = true ∧ j.2.has m = true := by
  rw [has_iff (m := j.2) (x := n)]
  refine (Loop.foldl_collects (P := fun q : Requests => q.has₃ s n m = true)
    (fun a k hk => has₃_joinInstances hi (proper_of_mem hk) hs a s n m) requests).trans
    (or_congr_right ⟨?_, ?_⟩)
  · rintro ⟨k, hk, hc, ⟨hin, hkn⟩, hm⟩
    exact ⟨hc, hin, ⟨k, hk, hkn⟩, hm⟩
  · rintro ⟨hc, hin, ⟨k, hk, hkn⟩, hm⟩
    exact ⟨k, hk, hc, ⟨hin, hkn⟩, hm⟩

/-- What the pass for the request `r` adds. -/
theorem has₃_joinRequest (ho : Proper 16 o.1) (hr : Proper 16 r.1) (requests : Requests)
    (s n m : ℕ) : (joinRequest o requests r).has₃ s n m = true ↔
      requests.has₃ s n m = true ∨ (o.1.Contains s ∧ r.1.Contains s) ∧ o.2.has n = true ∧
        ∃ j ∈ segments r.2, j.2.has n = true ∧ j.2.has m = true := by
  unfold joinRequest
  rw [← overlap_iff ho hr, has_iff]
  dsimp only
  rw [min_comm (getBounds r.1).2]
  split_ifs with h
  · have hs := proper_overlap ho hr h
    refine (Loop.foldl_collects (P := fun q : Requests => q.has₃ s n m = true)
      (fun a i hi => Loop.foldl_collects (P := fun q : Requests => q.has₃ s n m = true)
        (fun a' j _ => has₃_foldl_joinInstances (j := j) (proper_of_mem hi) hs a' s n m) a)
      requests).trans (or_congr_right ⟨?_, ?_⟩)
    · rintro ⟨i, hi, j, hj, hc, hin, hjn, hjm⟩
      exact ⟨⟨h, hc⟩, ⟨i, hi, hin⟩, j, hj, hjn, hjm⟩
    · rintro ⟨⟨-, hc⟩, ⟨i, hi, hin⟩, j, hj, hjn, hjm⟩
      exact ⟨i, hi, j, hj, hc, hin, hjn, hjm⟩
  · simp only [h, false_and, or_false]

/-- **What the derived policy contains**: the offered instances that the request has as methods. -/
theorem has₃_requesterRequests (ho : Proper 16 o.1) (p : Policy) (s n m : ℕ) :
    (requesterRequests o p).has₃ s n m = true ↔ (o.1.Contains s ∧ o.2.has n = true) ∧
      ∃ n', p.requests.has₃ s n' n = true ∧ p.requests.has₃ s n' m = true := by
  refine (Loop.foldl_collects (P := fun q : Requests => q.has₃ s n m = true)
    (fun a r hr => has₃_joinRequest ho (proper_of_mem hr) a s n m) empty).trans ?_
  constructor
  · rintro (hempty | ⟨r, hr, ⟨hos, hrs⟩, hon, j, hj, hjn, hjm⟩)
    · exact absurd hempty (by simp)
    · obtain ⟨n', hn'⟩ : ∃ n', j.1.Contains n' :=
        ⟨j.1.start, le_rfl, (proper_of_mem hj).1⟩
      refine ⟨⟨hos, hon⟩, n', ?_, ?_⟩
      · exact has₃_iff.mpr ⟨r, hr, hrs, has₂_iff.mpr ⟨j, hj, hn', hjn⟩⟩
      · exact has₃_iff.mpr ⟨r, hr, hrs, has₂_iff.mpr ⟨j, hj, hn', hjm⟩⟩
  · rintro ⟨⟨hos, hon⟩, n', hn, hm⟩
    -- both methods are found in the same entry, since a number lies in one segment only
    obtain ⟨r, hr, hrs, hrn⟩ := has₃_iff.mp hn
    obtain ⟨j, hj, hjn', hjn⟩ := has₂_iff.mp hrn
    have hfind : p.requests.find s = some r.2 :=
      find_eq_some_iff.mpr ⟨r.1, hr, hrs⟩
    have hfind' : r.2.find n' = some j.2 := find_eq_some_iff.mpr ⟨j.1, hj, hjn'⟩
    simp only [has₃, has₂, hfind, hfind', Option.any_some] at hm
    exact Or.inr ⟨r, hr, ⟨hos, hrs⟩, hon, j, hj, hjn, hm⟩

/-- **When there is a derived policy**: when it contains something. -/
theorem requesterPolicy_eq_some_iff (p itsPolicy : Policy) :
    requesterPolicy o p = some itsPolicy ↔
      itsPolicy = { Policy.default with
        credentials := p.credentials, requests := requesterRequests o p } ∧
      ∃ s n m, (requesterRequests o p).has₃ s n m = true := by
  rw [← segments_ne_nil_iff, requesterPolicy]
  by_cases hnil : segments (requesterRequests o p) = []
  · rw [if_pos (List.isEmpty_iff.mpr hnil)]
    exact ⟨fun h => (nomatch h), fun h => absurd hnil h.2⟩
  · rw [if_neg (mt List.isEmpty_iff.mp hnil), Option.some.injEq, eq_comm]
    exact (and_iff_left hnil).symm

end loops

/-! ### The join -/

/-- What the policies derived from `q` allow together.
The source derives one policy for each offer of the given policy. -/
def DerivedAllow (policy : PolicyRef) (anyClientPolicies : List PolicyRef) (q : PolicyRef)
    (service inst method : ℕ) : Prop :=
  ∃ itsPolicy, (q, itsPolicy) ∈ getRequesterPolicies policy anyClientPolicies ∧
    itsPolicy.requests.has₃ service inst method = true

/-- The policy offers the instance and `q` requests the method of it. -/
def Joined (policy q : Policy) (service inst method : ℕ) : Prop :=
  policy.offers.has₂ service inst = true ∧ q.requests.has₃ service inst method = true

/-- **The exact join**: what is derived from `q` allows what is offered and requested, and a policy
without such a request yields nothing. -/
def ExactJoin (policy : PolicyRef) (anyClientPolicies : List PolicyRef) (q : PolicyRef) : Prop :=
  (∀ s n m, DerivedAllow policy anyClientPolicies q s n m ↔ Joined policy.policy q.policy s n m) ∧
  ((∀ s n m, ¬ Joined policy.policy q.policy s n m) →
    ∀ itsPolicy, (q, itsPolicy) ∉ getRequesterPolicies policy anyClientPolicies)

/-- For the instances that are offered, the request names a method of an instance iff it names
both, the instance's number and the method's, as methods of some one instance. -/
def MethodsStandForInstances (policy q : Policy) : Prop :=
  ∀ s n m, policy.offers.has₂ s n = true →
    (q.requests.has₃ s n m = true ↔
      ∃ n', q.requests.has₃ s n' n = true ∧ q.requests.has₃ s n' m = true)

variable {policy q : PolicyRef} {anyClientPolicies : List PolicyRef}

theorem mem_getRequesterPolicies {itsPolicy : Policy} :
    (q, itsPolicy) ∈ getRequesterPolicies policy anyClientPolicies ↔
      (q ∈ anyClientPolicies ∧ q.address ≠ policy.address) ∧
        ∃ o ∈ segments policy.policy.offers, requesterPolicy o q.policy = some itsPolicy := by
  simp only [getRequesterPolicies, List.mem_flatMap, List.mem_filterMap]
  constructor
  · rintro ⟨o, ho, p, hp, h⟩
    split_ifs at h with haddr
    obtain ⟨p', hp', heq⟩ := Option.map_eq_some_iff.mp h
    obtain ⟨rfl, rfl⟩ := Prod.mk.inj heq
    exact ⟨⟨hp, haddr⟩, o, ho, hp'⟩
  · rintro ⟨⟨hq, haddr⟩, o, ho, h⟩
    exact ⟨o, ho, q, hq, by rw [if_neg haddr, h]; rfl⟩

/-- What is derived from a policy, in terms of the offers and its requests. -/
theorem derivedAllow_iff (hq : q ∈ anyClientPolicies) (haddr : q.address ≠ policy.address)
    (s n m : ℕ) : DerivedAllow policy anyClientPolicies q s n m ↔
      policy.policy.offers.has₂ s n = true ∧
        ∃ n', q.policy.requests.has₃ s n' n = true ∧ q.policy.requests.has₃ s n' m = true := by
  unfold DerivedAllow
  simp only [mem_getRequesterPolicies, hq, haddr, ne_eq, not_false_eq_true, and_self, true_and]
  rw [has₂_iff]
  constructor
  · rintro ⟨itsPolicy, ⟨o, ho, hsome⟩, hhas⟩
    obtain ⟨rfl, -⟩ := (requesterPolicy_eq_some_iff _ _).mp hsome
    obtain ⟨hoff, hreq⟩ := (has₃_requesterRequests (proper_of_mem ho) _ s n m).mp hhas
    exact ⟨⟨o, ho, hoff⟩, hreq⟩
  · rintro ⟨⟨o, ho, hoff⟩, hreq⟩
    have hhas := (has₃_requesterRequests (proper_of_mem ho) q.policy s n m).mpr ⟨hoff, hreq⟩
    exact ⟨_, ⟨o, ho, (requesterPolicy_eq_some_iff _ _).mpr
      ⟨rfl, s, n, m, hhas⟩⟩, hhas⟩

/-- **Requester policies are the exact join of offers and requests** iff, for each of the other
policies, methods can stand for instances. -/
theorem requesters_exact_iff (policy : PolicyRef) (anyClientPolicies : List PolicyRef) :
    (∀ q ∈ anyClientPolicies, q.address ≠ policy.address → ExactJoin policy anyClientPolicies q) ↔
    ∀ q ∈ anyClientPolicies, q.address ≠ policy.address →
      MethodsStandForInstances policy.policy q.policy := by
  refine forall_congr' fun q => forall_congr' fun hq => forall_congr' fun haddr => ?_
  constructor
  · rintro ⟨hjoin, -⟩ s n m hoff
    have h := hjoin s n m
    rw [derivedAllow_iff hq haddr] at h
    simpa [Joined, hoff] using h.symm
  · intro h
    have hjoin : ∀ s n m, DerivedAllow policy anyClientPolicies q s n m ↔
        Joined policy.policy q.policy s n m := fun s n m => by
      rw [derivedAllow_iff hq haddr]
      exact and_congr_right fun hoff => (h s n m hoff).symm
    refine ⟨hjoin, fun hnone itsPolicy hmem => ?_⟩
    -- a derived policy contains something, and that is joined
    obtain ⟨-, o, ho, hsome⟩ := mem_getRequesterPolicies.mp hmem
    obtain ⟨rfl, s, n, m, hhas⟩ :=
      (requesterPolicy_eq_some_iff _ _).mp hsome
    exact hnone s n m ((hjoin s n m).mp ⟨_, hmem, hhas⟩)

/-! ### A request for another method than the instance's number -/

/-- The policy that offers instance 1 of service 1. -/
def offersOne : PolicyRef :=
  ⟨0, { Policy.default with offers := add empty (.closed 1 1) (add empty (.closed 1 1) ()) }⟩

/-- The policy that requests method 2 of instance 1 of service 1. -/
def requestsTwo : PolicyRef :=
  ⟨1, { Policy.default with
    requests := add empty (.closed 1 1) (add empty (.closed 1 1) (add empty (.closed 2 2) ())) }⟩

/-- What the first policy offers, with any containers. -/
theorem has₂_offersOne (s n : ℕ) : offersOne.policy.offers.has₂ s n = true ↔ s = 1 ∧ n = 1 := by
  simp [offersOne, has₂_add, has_add, Interval.contains_single]

/-- What the second policy requests, with any containers. -/
theorem has₃_requestsTwo (s n m : ℕ) :
    requestsTwo.policy.requests.has₃ s n m = true ↔ s = 1 ∧ n = 1 ∧ m = 2 := by
  simp [requestsTwo, has₃_add, has₂_add, has_add,
    Interval.contains_single]

/-- With any containers, what is offered and requested is not derived. -/
theorem requestsTwo_missed : Joined offersOne.policy requestsTwo.policy 1 1 2 ∧
      getRequesterPolicies offersOne [requestsTwo] = [] := by
  refine ⟨⟨(has₂_offersOne 1 1).mpr ⟨rfl, rfl⟩, (has₃_requestsTwo 1 1 2).mpr ⟨rfl, rfl, rfl⟩⟩, ?_⟩
  refine List.eq_nil_iff_forall_not_mem.mpr fun ⟨q, itsPolicy⟩ hmem => ?_
  obtain ⟨⟨hq, -⟩, o, ho, hsome⟩ := mem_getRequesterPolicies.mp hmem
  obtain rfl := List.mem_singleton.mp hq
  obtain ⟨-, s, n, m, hhas⟩ := (requesterPolicy_eq_some_iff _ _).mp hsome
  -- instance 1 would have to be a method that is requested
  obtain ⟨⟨hos, hon⟩, n', hn, -⟩ := (has₃_requesterRequests (proper_of_mem ho) _ s n m).mp hhas
  have hoffer := (has₂_offersOne s n).mp (has₂_iff.mpr ⟨o, ho, hos, hon⟩)
  have hrequest := (has₃_requestsTwo s n' n).mp hn
  omega

end containers

open scoped Icl.Pointwise

/-- What is offered and requested is not derived: instance 1 is compared with method 2. -/
theorem requester_missed : Joined offersOne.policy requestsTwo.policy 1 1 2 ∧
      getRequesterPolicies offersOne [requestsTwo] = [] :=
  requestsTwo_missed

end SomeipTunnel.Security
