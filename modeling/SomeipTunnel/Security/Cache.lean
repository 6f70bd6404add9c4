import SomeipTunnel.Security.Manager

/-!
# The permission cache

`is_client_allowed_cache_` is to save work only: a call answers what the policies answer. Its key
leaves out whether a service or a method is requested, and a change of the policies for a user and a
group erases the entries of that user and group, while a policy names users and groups by intervals
and may deny.

* `transparent_iff`: the answers are those of the policies iff every entry is granted by them, for
  either kind of request.
* `step_coherent_iff`: which calls keep that so, each in terms of the state before the call.
* `cache_transparent_iff`: the cache is transparent in every state of a run iff all its calls are of
  that kind.
-/

namespace SomeipTunnel.Security

open Icl Containers StepRun

section containers

variable [Containers]

namespace Manager

/-! ### Coherence -/

/-- The policies give the access of a cache entry. -/
def granted (policies : List Policy) (entry : (ℕ × ℕ) × Access) (isRequestService : Bool) : Bool :=
  policies.any (·.grants entry.1 entry.2 isRequestService)

/-- Every entry of the cache is granted, for either kind of request. -/
def Coherent (m : Manager) : Prop :=
  ∀ entry ∈ m.isClientAllowedCache, ∀ flag, granted m.anyClientPolicies entry flag = true

/-- Every call would answer what the policies alone answer. -/
def Transparent (m : Manager) : Prop :=
  ∀ secClient key flag, (m.isClientAllowed secClient key flag).1 = m.evaluate secClient key flag

/-- Policies are checked and a failed check denies; otherwise every call is allowed. -/
def Active (m : Manager) : Prop := m.policyEnabled = true ∧ m.checkCredentials = true

instance (m : Manager) : Decidable m.Active := inferInstanceAs (Decidable (_ ∧ _))

variable {m : Manager}

/-- **Transparency is coherence.** -/
theorem transparent_iff : m.Transparent ↔ (m.Active → m.Coherent) := by
  constructor
  · rintro h ⟨henabled, hcheck⟩ ⟨⟨uid, gid⟩, key⟩ hentry flag
    have := h (some ⟨uid, gid, secPortUnused⟩) key flag
    simpa [isClientAllowed, evaluate, henabled, hcheck, hentry, granted] using this.symm
  · intro h secClient key flag
    unfold isClientAllowed evaluate
    by_cases henabled : m.policyEnabled = true
    · rcases secClient with _ | c
      · simp [henabled]
      · by_cases hport : c.port = secPortUnused
        · simp only [henabled, Bool.not_true, Bool.false_eq_true, ↓reduceIte, hport, ne_eq,
            not_true_eq_false, decide_false, Bool.false_or]
          by_cases hcheck : m.checkCredentials = true
          · by_cases hentry : ((c.user, c.group), key) ∈ m.isClientAllowedCache
            · have := h ⟨henabled, hcheck⟩ _ hentry flag
              rw [if_pos hentry]
              simpa [granted, hcheck] using this.symm
            · rw [if_neg hentry]
              split_ifs with hgrant <;> simp [hgrant, hcheck]
          · simp only [Bool.not_eq_true] at hcheck
            split_ifs <;> simp [hcheck]
        · simp [henabled, hport]
    · simp [henabled]

/-! ### The calls that keep the cache coherent -/

/-- The policy that an update is merged into still grants the entry: it allows, or what is added to
the denied requests does not concern the entry. -/
def StillGrants (itsMatching policy : Policy) (entry : (ℕ × ℕ) × Access) (flag : Bool) : Prop :=
  itsMatching.grants entry.1 entry.2 flag = true ∧
    (itsMatching.allowWhat = true ∨
      policy.isMatching entry.2.service entry.2.inst entry.2.method flag = false ∧
        (entry.2.method ≠ anyMethod ∨ segments policy.requests = []))

/-- The calls that leave no stale entry behind.
* An access that is granted for one kind of request is granted for the other, or was in the cache.
* An update that extends a policy leaves the entries of other users and groups granted: by another
  policy, or still by the extended one.
* The policies that a removal leaves grant the entries of other users and groups.
Loading a policy and adding credentials only adds permissions. -/
def LeavesNoStaleGrant (m : Manager) : Call → Prop
  | .loadPolicy _ => True
  | .addSecurityCredentials _ _ _ => True
  | .isClientAllowed none _ _ => True
  | .isClientAllowed (some c) key flag =>
      c.port ≠ secPortUnused ∨ ((c.user, c.group), key) ∈ m.isClientAllowedCache ∨
        (granted m.anyClientPolicies ((c.user, c.group), key) flag = true →
          granted m.anyClientPolicies ((c.user, c.group), key) (!flag) = true)
  | .removeSecurityPolicy uid gid =>
      ∀ entry ∈ m.isClientAllowedCache, entry.1 ≠ (uid, gid) → ∀ flag,
        ∃ p ∈ m.anyClientPolicies, ¬ (p.hasUidGid uid gid = true ∧ p.allowWho = true) ∧
          p.grants entry.1 entry.2 flag = true
  | .updateSecurityPolicy uid gid policy =>
      let other := fun p : Policy => !(isSingle p uid gid && p.allowWho == policy.allowWho)
      match m.anyClientPolicies.dropWhile other with
      | [] => True
      | itsMatching :: rest => hangs policy = false →
          ∀ entry ∈ m.isClientAllowedCache, entry.1 ≠ (uid, gid) → ∀ flag,
            granted (m.anyClientPolicies.takeWhile other ++ rest) entry flag = true ∨
              StillGrants itsMatching policy entry flag

end Manager

/-! ### Merging -/

variable {itsMatching policy : Policy}

/-- A merged policy matches what one of the two matches. -/
theorem isMatching_mergePolicy (s n k : ℕ) (flag : Bool) :
    (Manager.mergePolicy itsMatching policy).isMatching s n k flag =
      (itsMatching.isMatching s n k flag || policy.isMatching s n k flag) := by
  rw [Bool.eq_iff_iff, Bool.or_eq_true]
  cases flag
  · exact has₃_mergePolicy s n k
  · exact has₂_mergePolicy s n

/-- Requests that are merged are empty iff both were. -/
theorem isEmpty_requests_mergePolicy :
    (segments (Manager.mergePolicy itsMatching policy).requests).isEmpty =
      ((segments itsMatching.requests).isEmpty && (segments policy.requests).isEmpty) := by
  have hmerged : segments (Manager.mergePolicy itsMatching policy).requests ≠ [] ↔
      segments itsMatching.requests ≠ [] ∨ segments policy.requests ≠ [] := by
    simp only [IntervalMap.segments_ne_nil_iff, has₃_mergePolicy, exists_or]
  rw [Bool.eq_iff_iff, Bool.and_eq_true, List.isEmpty_iff, List.isEmpty_iff, List.isEmpty_iff]
  simpa only [ne_eq, not_or, not_not] using not_congr hmerged

/-- What a policy that granted an entry does after a merge. -/
theorem grants_mergePolicy_iff {entry : (ℕ × ℕ) × Access} {flag : Bool}
    (h : itsMatching.grants entry.1 entry.2 flag = true) :
    (Manager.mergePolicy itsMatching policy).grants entry.1 entry.2 flag = true ↔
      Manager.StillGrants itsMatching policy entry flag := by
  unfold Manager.StillGrants
  rw [h]
  have hsame : ∀ uid gid, (Manager.mergePolicy itsMatching policy).hasUidGid uid gid =
      itsMatching.hasUidGid uid gid := fun _ _ => rfl
  have hwho : (Manager.mergePolicy itsMatching policy).allowWho = itsMatching.allowWho := rfl
  have hwhat : (Manager.mergePolicy itsMatching policy).allowWhat = itsMatching.allowWhat := rfl
  unfold Policy.grants at h ⊢
  dsimp only at h ⊢
  rw [hsame, hwho, hwhat, isEmpty_requests_mergePolicy, isMatching_mergePolicy]
  split_ifs at h ⊢ with happlies hallow
  · simp [h, hallow]
  · rw [← List.isEmpty_iff]
    by_cases hany : entry.2.method = anyMethod
    · simp_all
    · simp_all

/-! ### One call -/

namespace Manager

variable {m : Manager}

theorem granted_append {ps qs : List Policy} {entry : (ℕ × ℕ) × Access} {flag : Bool} :
    granted (ps ++ qs) entry flag = true ↔
      granted ps entry flag = true ∨ granted qs entry flag = true := by
  simp only [granted, List.any_append, Bool.or_eq_true]

/-- More policies grant more. -/
theorem Coherent.push (h : m.Coherent) (policy : Policy) :
    Coherent { m with anyClientPolicies := m.anyClientPolicies ++ [policy] } :=
  fun entry hentry flag => granted_append.mpr (Or.inl (h entry hentry flag))

theorem coherent_eraseCache {uid gid : ℕ} : (m.eraseCache uid gid).Coherent ↔
    ∀ entry ∈ m.isClientAllowedCache, entry.1 ≠ (uid, gid) → ∀ flag,
      granted m.anyClientPolicies entry flag = true := by
  unfold Coherent eraseCache
  simp only [List.mem_filter, decide_eq_true_iff, and_imp]

theorem Coherent.eraseCache (h : m.Coherent) (uid gid : ℕ) : (m.eraseCache uid gid).Coherent :=
  coherent_eraseCache.mpr fun entry hentry _ => h entry hentry

theorem coherent_isClientAllowed_iff (hactive : m.Active) (h : m.Coherent)
    (secClient : Option SecClient) (key : Access) (flag : Bool) :
    (m.isClientAllowed secClient key flag).2.Coherent ↔
      m.LeavesNoStaleGrant (.isClientAllowed secClient key flag) := by
  rcases secClient with _ | c
  · simpa [isClientAllowed, hactive.1, LeavesNoStaleGrant] using h
  · simp only [isClientAllowed, hactive.1, Bool.not_true, Bool.false_eq_true, ↓reduceIte,
      LeavesNoStaleGrant]
    by_cases hport : c.port = secPortUnused
    · by_cases hentry : ((c.user, c.group), key) ∈ m.isClientAllowedCache
      · simp [hport, hentry, h]
      · by_cases hgrant : m.anyClientPolicies.any (·.grants (c.user, c.group) key flag) = true
        · have hgranted : granted m.anyClientPolicies ((c.user, c.group), key) flag = true := hgrant
          simp only [hport, ne_eq, not_true_eq_false, ↓reduceIte, hentry, hgrant, hgranted,
            forall_const, false_or]
          unfold Coherent
          simp only [List.forall_mem_cons]
          constructor
          · exact fun hnew => hnew.1 (!flag)
          · refine fun hother => ⟨fun flag' => ?_, h⟩
            cases flag <;> cases flag'
            all_goals first | exact hgranted | exact hother
        · have hgranted : ¬ granted m.anyClientPolicies ((c.user, c.group), key) flag = true := hgrant
          simp [hport, hentry, hgrant, hgranted, h]
    · simp [hport, h]

theorem coherent_removeSecurityPolicy_iff (h : m.Coherent) (uid gid : ℕ) :
    (m.removeSecurityPolicy uid gid).2.Coherent ↔
      m.LeavesNoStaleGrant (.removeSecurityPolicy uid gid) := by
  unfold removeSecurityPolicy LeavesNoStaleGrant
  split_ifs with hnil
  · rw [List.isEmpty_iff] at hnil
    refine iff_of_true h fun entry hentry => ?_
    have := h entry hentry true
    rw [hnil] at this
    cases this
  · dsimp only
    rw [coherent_eraseCache]
    refine forall_congr' fun entry => forall_congr' fun _ => forall_congr' fun _ =>
      forall_congr' fun flag => ?_
    simp only [granted, List.any_eq_true, List.mem_filter, Bool.not_eq_true', Bool.and_eq_false_iff,
      and_assoc, not_and_or, Bool.not_eq_true]

theorem coherent_updateSecurityPolicy_iff (h : m.Coherent) (uid gid : ℕ) (policy : Policy) :
    (∀ m', m.updateSecurityPolicy uid gid policy = .ok m' → m'.Coherent) ↔
      m.LeavesNoStaleGrant (.updateSecurityPolicy uid gid policy) := by
  unfold updateSecurityPolicy LeavesNoStaleGrant
  dsimp only
  generalize hother : (fun p : Policy => !(isSingle p uid gid && p.allowWho == policy.allowWho)) =
    other
  have hsplit := List.takeWhile_append_dropWhile (p := other) (l := m.anyClientPolicies)
  rcases hdrop : m.anyClientPolicies.dropWhile other with _ | ⟨itsMatching, rest⟩
  · simp only [Except.ok.injEq, forall_eq']
    exact iff_of_true ((h.push policy).eraseCache uid gid) trivial
  · dsimp only
    rw [hdrop] at hsplit
    split_ifs with hhangs
    · simp [hhangs]
    · simp only [Except.ok.injEq, forall_eq', hhangs, coherent_eraseCache, forall_const]
      refine forall_congr' fun entry => forall_congr' fun hentry => forall_congr' fun _ =>
        forall_congr' fun flag => ?_
      have hcons : ∀ p, granted (p :: rest) entry flag = true ↔
          p.grants entry.1 entry.2 flag = true ∨ granted rest entry flag = true := fun p => by
        simp only [granted, List.any_cons, Bool.or_eq_true]
      -- the entry was granted before, by the matching policy or by another one
      have hbefore := h entry hentry flag
      rw [← hsplit, granted_append, hcons] at hbefore
      rw [granted_append, granted_append, hcons]
      by_cases hgrants : itsMatching.grants entry.1 entry.2 flag = true
      · rw [grants_mergePolicy_iff hgrants]
        tauto
      · have hnot : ¬ StillGrants itsMatching policy entry flag := fun hs => hgrants hs.1
        tauto

/-- **Which calls keep the cache coherent.** -/
theorem step_coherent_iff (hactive : m.Active) (h : m.Coherent) (call : Call) :
    (∀ o m', m.step call = .ok (o, m') → m'.Coherent) ↔ m.LeavesNoStaleGrant call := by
  rcases call with policy | ⟨uid, gid, policy⟩ | ⟨uid, gid, policy⟩ | ⟨uid, gid⟩ |
    ⟨secClient, key, flag⟩
  · refine iff_of_true ?_ trivial
    rintro o m' ⟨⟩
    unfold loadPolicy
    split_ifs
    · exact h
    · exact h.push policy
  · rw [← coherent_updateSecurityPolicy_iff h]
    rcases hupdate : m.updateSecurityPolicy uid gid policy with e | m₁
    · simp [step, hupdate, Except.map]
    · simp [step, hupdate, Except.map]
  · refine iff_of_true ?_ trivial
    rintro o m' ⟨⟩
    unfold addSecurityCredentials
    split_ifs
    · exact h
    · exact h.push policy
  · rw [← coherent_removeSecurityPolicy_iff h]
    simp [step]
  · rw [← coherent_isClientAllowed_iff hactive h]
    simp [step]

/-- No call changes whether policies are checked. -/
theorem step_active_iff {call : Call} {o : Option Bool} {m' : Manager}
    (h : m.step call = .ok (o, m')) : m'.Active ↔ m.Active := by
  have hflags : m'.policyEnabled = m.policyEnabled ∧ m'.checkCredentials = m.checkCredentials := by
    rcases call with policy | ⟨uid, gid, policy⟩ | ⟨uid, gid, policy⟩ | ⟨uid, gid⟩ |
      ⟨secClient, key, flag⟩
    · cases h
      unfold loadPolicy
      split_ifs <;> exact ⟨rfl, rfl⟩
    · unfold step updateSecurityPolicy at h
      dsimp only at h
      split at h
      · cases h
        exact ⟨rfl, rfl⟩
      · split_ifs at h
        · cases h
        · cases h
          exact ⟨rfl, rfl⟩
    · cases h
      unfold addSecurityCredentials
      split_ifs <;> exact ⟨rfl, rfl⟩
    · cases h
      unfold removeSecurityPolicy
      split_ifs <;> exact ⟨rfl, rfl⟩
    · cases h
      unfold isClientAllowed
      split_ifs
      · exact ⟨rfl, rfl⟩
      · rcases secClient with _ | c
        · exact ⟨rfl, rfl⟩
        · dsimp only
          split_ifs <;> exact ⟨rfl, rfl⟩
  unfold Active
  rw [hflags.1, hflags.2]

/-! ### Whole runs -/

/-- A manager whose cache has not been used. -/
def fresh (policyEnabled checkCredentials : Bool) (policies : List Policy) : Manager :=
  ⟨policyEnabled, checkCredentials, policies, []⟩

/-- **The permission cache is transparent** in every state of a run iff, where policies are
enforced at all, no call of the run leaves a stale grant behind. -/
theorem cache_transparent_iff (policyEnabled checkCredentials : Bool) (policies : List Policy)
    (calls : List Call) :
    AllSteps step (fun m call => ∀ o m', m.step call = .ok (o, m') → m'.Transparent)
      (fresh policyEnabled checkCredentials policies) calls ↔
    ((fresh policyEnabled checkCredentials policies).Active →
      AllSteps step LeavesNoStaleGrant (fresh policyEnabled checkCredentials policies) calls) := by
  have hcoherent : (fresh policyEnabled checkCredentials policies).Coherent := by
    simp [Coherent, fresh]
  by_cases hactive : (fresh policyEnabled checkCredentials policies).Active
  · simp only [hactive, forall_const]
    refine AllSteps.iff_of_invariant (fun m => m.Active ∧ m.Coherent) ?_ ?_ ⟨hactive, hcoherent⟩
    · rintro m call o m' ⟨ha, hc⟩ hleaves hstep
      exact ⟨(step_active_iff hstep).mpr ha, (step_coherent_iff ha hc call).mpr hleaves o m' hstep⟩
    · rintro m call ⟨ha, hc⟩
      rw [← step_coherent_iff ha hc call]
      refine forall_congr' fun o => forall_congr' fun m' => forall_congr' fun hstep => ?_
      rw [transparent_iff]
      simp only [(step_active_iff hstep).mpr ha, forall_const]
  · -- every call is allowed
    simp only [hactive, false_imp_iff, iff_true]
    refine AllSteps.of_forall (fun m => ¬ m.Active) ?_ ?_ hactive
    · exact fun m call o m' ha hstep => mt (step_active_iff hstep).mp ha
    · exact fun m call ha o m' hstep =>
        transparent_iff.mpr fun ha' => absurd ((step_active_iff hstep).mp ha') ha

/-! ### A removal for one user of a range -/

/-- Users 1 and 2 of group 1 may call method 1 of instance 1 of service 1. -/
def rangePolicy : Policy :=
  { credentials := add empty (.closed 1 2) (add empty (.closed 1 1) ()),
    allowWho := true,
    requests := add empty (.closed 1 1) (add empty (.closed 1 1) (add empty (.closed 1 1) ())),
    offers := empty,
    allowWhat := true }

/-- The policy is for both users. -/
theorem hasUidGid_rangePolicy {uid : ℕ} (h : uid = 1 ∨ uid = 2) :
    rangePolicy.hasUidGid uid 1 = true := by
  rcases h with rfl | rfl <;>
    simp [rangePolicy, Policy.hasUidGid, IntervalMap.has₂_add, IntervalMap.has_add]

/-- User 2 has the access by the policy. -/
theorem rangePolicy_grants : rangePolicy.grants (2, 1) ⟨1, 1, 1⟩ false = true := by
  have hmatching : rangePolicy.isMatching 1 1 1 false = true := by
    simp [rangePolicy, Policy.isMatching, IntervalMap.has₃_add, IntervalMap.has₂_add,
      IntervalMap.has_add]
  unfold Policy.grants
  rw [hasUidGid_rangePolicy (Or.inr rfl), hmatching]
  rfl

/-- With any containers, user 2 keeps the access after the only policy that gave it has been removed
for user 1. -/
theorem rangePolicy_removed : ∃ os m, run step (fresh true true [rangePolicy])
        [.isClientAllowed (some ⟨2, 1, secPortUnused⟩) ⟨1, 1, 1⟩ false,
          .removeSecurityPolicy 1 1] = .ok (os, m) ∧
      (m.isClientAllowed (some ⟨2, 1, secPortUnused⟩) ⟨1, 1, 1⟩ false).1 = true ∧
      m.evaluate (some ⟨2, 1, secPortUnused⟩) ⟨1, 1, 1⟩ false = false := by
  have hallow : (fresh true true [rangePolicy]).isClientAllowed (some ⟨2, 1, secPortUnused⟩)
      ⟨1, 1, 1⟩ false = (true, ⟨true, true, [rangePolicy], [((2, 1), ⟨1, 1, 1⟩)]⟩) := by
    simp [isClientAllowed, fresh, rangePolicy_grants]
  have hremove : (⟨true, true, [rangePolicy], [((2, 1), ⟨1, 1, 1⟩)]⟩ : Manager).removeSecurityPolicy
      1 1 = (true, ⟨true, true, [], [((2, 1), ⟨1, 1, 1⟩)]⟩) := by
    have hid : rangePolicy.hasUidGid 1 1 = true := hasUidGid_rangePolicy (Or.inl rfl)
    have hwho : rangePolicy.allowWho = true := rfl
    simp [removeSecurityPolicy, eraseCache, hid, hwho]
  refine ⟨[some true, some true], ⟨true, true, [], [((2, 1), ⟨1, 1, 1⟩)]⟩, ?_, rfl, rfl⟩
  simp [run, step, hallow, hremove]

end Manager

end containers

open scoped Icl.Pointwise

/-- User 2 keeps the access after the only policy that gave it has been removed for user 1. -/
theorem Manager.removed_policy_still_grants :
    ∃ os m, run Manager.step (Manager.fresh true true [Manager.rangePolicy])
        [.isClientAllowed (some ⟨2, 1, secPortUnused⟩) ⟨1, 1, 1⟩ false,
          .removeSecurityPolicy 1 1] = .ok (os, m) ∧
      (m.isClientAllowed (some ⟨2, 1, secPortUnused⟩) ⟨1, 1, 1⟩ false).1 = true ∧
      m.evaluate (some ⟨2, 1, secPortUnused⟩) ⟨1, 1, 1⟩ false = false :=
  Manager.rangePolicy_removed

end SomeipTunnel.Security
