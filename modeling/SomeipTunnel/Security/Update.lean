import SomeipTunnel.Security.Cache

/-!
# What an update of a policy changes

`update_security_policy` is to give one user and group the rights of a policy. It looks for the first
policy for exactly that user and group with the same `allow_who_` and extends its requests and
offers; only if there is none the policy is added. Whether the extended policy lists what is allowed
or what is denied (`allow_what_`) does not matter to the search, so that the rights of the update may
be added to a list of denials.

* `hasUidGid_of_isSingle`: the policy that is extended is for that user and group and no other.
* `grants_merge_iff`, `grantsOffer_merge_iff`: where the extended policy answers as it did, or as the
  update does.
* `update_adds_rights_iff`: the answers after an update are those from before together with those of
  the update iff the extended policy allows, or other policies grant all that the update is to grant.
-/

namespace SomeipTunnel.Security

open Icl Containers IntervalMap List

section containers

variable [Containers]

/-! ### Offers -/

/-- Whether a policy lets the user and group offer the instance.
Source: `policy_manager_impl.cpp`, `is_offer_allowed`, the body of the loop over the policies -/
def Policy.grantsOffer (p : Policy) (credentials : ℕ × ℕ) (service inst : ℕ) : Bool :=
  let hasId := p.hasUidGid credentials.1 credentials.2
  let hasOffer := p.offers.has₂ service inst
  if (hasId && p.allowWho) || (!hasId && !p.allowWho) then p.allowWhat == hasOffer else false

namespace Manager

/-- Source: `policy_manager_impl.cpp`, `is_offer_allowed` -/
def isOfferAllowed (m : Manager) (secClient : Option SecClient) (service inst : ℕ) : Bool :=
  if !m.policyEnabled then true
  else
    match secClient with
    | none => !m.checkCredentials
    | some c =>
        c.port ≠ secPortUnused ||
          m.anyClientPolicies.any (·.grantsOffer (c.user, c.group) service inst) ||
          !m.checkCredentials

/-- The policies let the user and group offer the instance. -/
def offered (policies : List Policy) (credentials : ℕ × ℕ) (service inst : ℕ) : Bool :=
  policies.any (·.grantsOffer credentials service inst)

end Manager

/-! ### The purpose of an update -/

/-- The identifiers have 16 bits. -/
def Access.InRange (key : Access) : Prop :=
  key.service < 2 ^ 16 ∧ key.inst < 2 ^ 16 ∧ key.method < 2 ^ 16

/-- A policy that allows the one user and group something, with services up to `0xFFFE`. -/
structure Policy.AllowsFor (p : Policy) (uid gid : ℕ) : Prop where
  allowWho : p.allowWho = true
  allowWhat : p.allowWhat = true
  credentials : ∀ x y, p.hasUidGid x y = true ↔ x = uid ∧ y = gid
  requests : ∀ r ∈ segments p.requests, r.1.stop ≤ 0xFFFF
  offers : ∀ o ∈ segments p.offers, o.1.stop ≤ 0xFFFF

namespace Manager

/-- `m'` answers as `m` does, and lets clients of the user and group do what the policy allows. -/
structure AddsExactly (m m' : Manager) (uid gid : ℕ) (policy : Policy) : Prop where
  requests : ∀ c : SecClient, c.user = uid → c.group = gid → ∀ key : Access, key.InRange →
    ∀ flag, m'.evaluate (some c) key flag =
      (m.evaluate (some c) key flag || policy.grants (uid, gid) key flag)
  offers : ∀ c : SecClient, c.user = uid → c.group = gid → ∀ service < 2 ^ 16, ∀ inst < 2 ^ 16,
    m'.isOfferAllowed (some c) service inst =
      (m.isOfferAllowed (some c) service inst || policy.grantsOffer (uid, gid) service inst)
  others : ∀ secClient : Option SecClient, (∀ c ∈ secClient, (c.user, c.group) ≠ (uid, gid)) →
    (∀ key flag, m'.evaluate secClient key flag = m.evaluate secClient key flag) ∧
      ∀ service inst, m'.isOfferAllowed secClient service inst =
        m.isOfferAllowed secClient service inst

/-- The other policies grant whatever an update of a policy that denies takes away: all that the
update lists, and requests for any method if the policy denied nothing so far. -/
structure Covered (others : List Policy) (itsMatching policy : Policy) (uid gid : ℕ) : Prop where
  requests : ∀ key : Access, key.InRange → ∀ flag,
    (policy.isMatching key.service key.inst key.method flag = true ∨
      key.method = anyMethod ∧ segments itsMatching.requests = [] ∧
        segments policy.requests ≠ []) →
    granted others ((uid, gid), key) flag = true
  offers : ∀ service < 2 ^ 16, ∀ inst < 2 ^ 16, policy.offers.has₂ service inst = true →
    offered others (uid, gid) service inst = true

/-- Where policies are enforced at all, the update is added as a policy of its own, or extends a
policy that allows, or one that denies while the other policies cover it. -/
def MergesIntoAllowed (m : Manager) (uid gid : ℕ) (policy : Policy) : Prop :=
  let other := fun p : Policy => !(isSingle p uid gid && p.allowWho == policy.allowWho)
  m.Active →
    match m.anyClientPolicies.dropWhile other with
    | [] => True
    | itsMatching :: rest => itsMatching.allowWhat = true ∨
        Covered (m.anyClientPolicies.takeWhile other ++ rest) itsMatching policy uid gid

end Manager

/-! ### The policy that is extended -/

variable {itsMatching policy : Policy} {uid gid : ℕ}

/-- **A policy with single credentials** is for that user and group and no other. -/
theorem hasUidGid_of_isSingle {p : Policy} (h : Manager.isSingle p uid gid = true) (x y : ℕ) :
    p.hasUidGid x y = true ↔ x = uid ∧ y = gid := by
  unfold Manager.isSingle at h
  rw [Bool.and_eq_true, beq_iff_eq] at h
  obtain ⟨hsize, h⟩ := h
  rcases huids : segments p.credentials with _ | ⟨itsUids, rest⟩
  · rw [huids] at h
    cases h
  · rw [huids] at h
    simp only [Bool.and_eq_true, beq_iff_eq] at h
    obtain ⟨⟨⟨hlower, hupper⟩, hsize₂⟩, h⟩ := h
    rcases hgids : segments itsUids.2 with _ | ⟨itsGids, rest₂⟩
    · rw [hgids] at h
      cases h
    · rw [hgids] at h
      simp only [Bool.and_eq_true, beq_iff_eq] at h
      have hrest := tail_eq_nil_of_size hsize huids
      have hrest₂ := tail_eq_nil_of_size hsize₂ hgids
      subst hrest
      subst hrest₂
      have huid := proper_of_mem (m := p.credentials) (s := itsUids) (by simp [huids])
      have hgid := proper_of_mem (m := itsUids.2) (s := itsGids) (by simp [hgids])
      unfold Policy.hasUidGid
      rw [has₂_iff, huids]
      simp only [mem_singleton, exists_eq_left, has_iff, hgids,
        huid.contains_iff_of_bounds hlower hupper, hgid.contains_iff_of_bounds h.1 h.2]

/-- Services up to `0xFFFE` end the loops. -/
theorem Policy.AllowsFor.not_hangs (h : policy.AllowsFor uid gid) :
    Manager.hangs policy = false := by
  have hlast : ∀ I : Interval, Proper 16 I → I.stop ≤ 0xFFFF →
      ((getBounds I).2 == 0xFFFF) = false := by
    intro I hI hstop
    have := (getBounds_spec hI).2
    rw [beq_eq_false_iff_ne]
    omega
  unfold Manager.hangs
  rw [Bool.or_eq_false_iff, any_eq_false, any_eq_false]
  constructor
  · intro r hr
    simp [hlast r.1 (proper_of_mem hr) (h.requests r hr)]
  · intro o ho
    simp [hlast o.1 (proper_of_mem ho) (h.offers o ho)]

/-! ### Answers of one policy -/

section grants

variable {p : Policy} {key : Access} {flag : Bool} {others : Bool}

/-- The answers to the user and group themselves. -/
theorem grants_of_hasUidGid (hwho : p.allowWho = true) (hid : p.hasUidGid uid gid = true) :
    p.grants (uid, gid) key flag =
      if p.allowWhat then p.isMatching key.service key.inst key.method flag
      else !p.isMatching key.service key.inst key.method flag &&
        (key.method != anyMethod || (segments p.requests).isEmpty) := by
  unfold Policy.grants
  rw [hid, hwho]
  rcases p.allowWhat with _ | _
  · rcases p.isMatching key.service key.inst key.method flag with _ | _
    · by_cases hany : key.method = anyMethod
      · simp [hany]
      · have hne : (key.method != anyMethod) = true := bne_iff_ne.mpr hany
        simp [hne]
    · simp
  · simp

theorem grantsOffer_of_hasUidGid (hwho : p.allowWho = true) (hid : p.hasUidGid uid gid = true)
    (service inst : ℕ) :
    p.grantsOffer (uid, gid) service inst = (p.allowWhat == p.offers.has₂ service inst) := by
  unfold Policy.grantsOffer
  rw [hid, hwho]
  rfl

section extended

variable (hwho : itsMatching.allowWho = true) (hid : itsMatching.hasUidGid uid gid = true)
  (hpolicy : policy.AllowsFor uid gid)

include hwho hid hpolicy

/-- **The requests an extended policy grants**: those from before and those of the update, unless it
denies and no other policy grants what it takes away. -/
theorem grants_merge_iff :
    (others || (Manager.mergePolicy itsMatching policy).grants (uid, gid) key flag) =
        ((others || itsMatching.grants (uid, gid) key flag) || policy.grants (uid, gid) key flag) ↔
      itsMatching.allowWhat = true ∨
        ((policy.isMatching key.service key.inst key.method flag = true ∨
          key.method = anyMethod ∧ segments itsMatching.requests = [] ∧
            segments policy.requests ≠ []) → others = true) := by
  -- nothing is matched by requests that are empty
  have hempty : segments itsMatching.requests = [] →
      itsMatching.isMatching key.service key.inst key.method flag = false := by
    intro hsegments
    have hfind : itsMatching.requests.find key.service = none := by
      simp [find, hsegments]
    unfold Policy.isMatching has₂ has₃
    simp [hfind]
  have hmerged := @grants_of_hasUidGid _ uid gid (Manager.mergePolicy itsMatching policy) key flag
    hwho hid
  rw [hmerged, grants_of_hasUidGid hwho hid,
    grants_of_hasUidGid hpolicy.allowWho ((hpolicy.credentials uid gid).mpr ⟨rfl, rfl⟩),
    isMatching_mergePolicy, isEmpty_requests_mergePolicy, hpolicy.allowWhat, if_pos rfl, ← List.isEmpty_iff, ne_eq,
    ← List.isEmpty_iff]
  rw [← List.isEmpty_iff] at hempty
  have hwhat : (Manager.mergePolicy itsMatching policy).allowWhat = itsMatching.allowWhat := rfl
  rw [hwhat]
  have hany : (key.method != anyMethod) = !decide (key.method = anyMethod) := rfl
  rw [hany]
  generalize itsMatching.isMatching key.service key.inst key.method flag = before at hempty ⊢
  generalize policy.isMatching key.service key.inst key.method flag = new
  generalize (segments itsMatching.requests).isEmpty = nothing at hempty ⊢
  generalize (segments policy.requests).isEmpty = nothingNew
  by_cases hmethod : key.method = anyMethod
  · simp only [hmethod, decide_true]
    revert hempty
    cases itsMatching.allowWhat <;> cases before <;> cases new <;> cases nothing <;>
      cases nothingNew <;> cases others <;> simp
  · simp only [hmethod, decide_false]
    cases itsMatching.allowWhat <;> cases before <;> cases new <;> cases others <;> simp

theorem grantsOffer_merge_iff (service inst : ℕ) :
    (others || (Manager.mergePolicy itsMatching policy).grantsOffer (uid, gid) service inst) =
        ((others || itsMatching.grantsOffer (uid, gid) service inst) ||
          policy.grantsOffer (uid, gid) service inst) ↔ itsMatching.allowWhat = true ∨
        (policy.offers.has₂ service inst = true → others = true) := by
  have hmerged := grantsOffer_of_hasUidGid (p := Manager.mergePolicy itsMatching policy) hwho hid
    service inst
  have hoffers : (Manager.mergePolicy itsMatching policy).offers.has₂ service inst =
      (itsMatching.offers.has₂ service inst || policy.offers.has₂ service inst) := by
    rw [Bool.eq_iff_iff, Bool.or_eq_true]
    exact has₂_offers_mergePolicy service inst
  rw [hmerged, grantsOffer_of_hasUidGid hwho hid,
    grantsOffer_of_hasUidGid hpolicy.allowWho ((hpolicy.credentials uid gid).mpr ⟨rfl, rfl⟩),
    hoffers, hpolicy.allowWhat]
  have hwhat : (Manager.mergePolicy itsMatching policy).allowWhat = itsMatching.allowWhat := rfl
  rw [hwhat]
  cases itsMatching.allowWhat <;> cases itsMatching.offers.has₂ service inst <;>
    cases policy.offers.has₂ service inst <;> cases others <;> simp

end extended

end grants

/-! ### Answers of the manager -/

namespace Manager

variable {m : Manager}

/-- The answer does not depend on the policies. -/
def skipsPolicies (m : Manager) (c : SecClient) : Bool :=
  !m.policyEnabled || !m.checkCredentials || c.port != secPortUnused

theorem skipsPolicies_eq_false_iff {c : SecClient} :
    m.skipsPolicies c = false ↔ m.Active ∧ c.port = secPortUnused := by
  simp [skipsPolicies, Active]

theorem evaluate_some (c : SecClient) (key : Access) (flag : Bool) : m.evaluate (some c) key flag =
      (m.skipsPolicies c || granted m.anyClientPolicies ((c.user, c.group), key) flag) := by
  unfold evaluate granted skipsPolicies
  by_cases henabled : m.policyEnabled = true
  · by_cases hcheck : m.checkCredentials = true
    · simp [henabled, hcheck, bne, Bool.beq_eq_decide_eq]
    · simp [henabled, hcheck]
  · simp [henabled]

theorem isOfferAllowed_some (c : SecClient) (service inst : ℕ) :
    m.isOfferAllowed (some c) service inst =
      (m.skipsPolicies c || offered m.anyClientPolicies (c.user, c.group) service inst) := by
  unfold isOfferAllowed offered skipsPolicies
  by_cases henabled : m.policyEnabled = true
  · by_cases hcheck : m.checkCredentials = true
    · simp [henabled, hcheck, bne, Bool.beq_eq_decide_eq]
    · simp [henabled, hcheck]
  · simp [henabled]

/-- The manager with other policies, after an update. -/
def withPolicies (m : Manager) (uid gid : ℕ) (policies : List Policy) : Manager :=
  { m with anyClientPolicies := policies }.eraseCache uid gid

/-- What is to be shown of the policies alone. -/
theorem addsExactly_iff {policies : List Policy}
    (hothers : ∀ credentials, credentials ≠ (uid, gid) →
      (∀ key flag, granted policies (credentials, key) flag =
        granted m.anyClientPolicies (credentials, key) flag) ∧
      ∀ service inst, offered policies credentials service inst =
        offered m.anyClientPolicies credentials service inst) :
    AddsExactly m (m.withPolicies uid gid policies) uid gid policy ↔ (m.Active →
        (∀ key : Access, key.InRange → ∀ flag, granted policies ((uid, gid), key) flag =
          (granted m.anyClientPolicies ((uid, gid), key) flag ||
            policy.grants (uid, gid) key flag)) ∧
        ∀ service < 2 ^ 16, ∀ inst < 2 ^ 16, offered policies (uid, gid) service inst =
          (offered m.anyClientPolicies (uid, gid) service inst ||
            policy.grantsOffer (uid, gid) service inst)) := by
  have hskips : ∀ c, (m.withPolicies uid gid policies).skipsPolicies c = m.skipsPolicies c :=
    fun _ => rfl
  have hpolicies : (m.withPolicies uid gid policies).anyClientPolicies = policies := rfl
  constructor
  · rintro ⟨hrequests, hoffers, -⟩ ha
    have hasks : m.skipsPolicies ⟨uid, gid, secPortUnused⟩ = false :=
      skipsPolicies_eq_false_iff.mpr ⟨ha, rfl⟩
    constructor
    · intro key hkey flag
      simpa only [evaluate_some, hskips, hpolicies, hasks, Bool.false_or] using
        hrequests ⟨uid, gid, secPortUnused⟩ rfl rfl key hkey flag
    · intro service hservice inst hinst
      simpa only [isOfferAllowed_some, hskips, hpolicies, hasks, Bool.false_or] using
        hoffers ⟨uid, gid, secPortUnused⟩ rfl rfl service hservice inst hinst
  · intro h
    refine ⟨?_, ?_, ?_⟩
    · rintro c rfl rfl key hkey flag
      rw [evaluate_some, evaluate_some, hskips, hpolicies]
      rcases hasks : m.skipsPolicies c with _ | _
      · have ha := (skipsPolicies_eq_false_iff.mp hasks).1
        simp only [Bool.false_or, (h ha).1 key hkey flag]
      · rfl
    · rintro c rfl rfl service hservice inst hinst
      rw [isOfferAllowed_some, isOfferAllowed_some, hskips, hpolicies]
      rcases hasks : m.skipsPolicies c with _ | _
      · have ha := (skipsPolicies_eq_false_iff.mp hasks).1
        simp only [Bool.false_or, (h ha).2 service hservice inst hinst]
      · rfl
    · intro secClient hne
      rcases secClient with _ | c
      · exact ⟨fun _ _ => rfl, fun _ _ => rfl⟩
      · obtain ⟨hrequests, hoffers⟩ := hothers (c.user, c.group) (hne c rfl)
        constructor
        · intro key flag
          rw [evaluate_some, evaluate_some, hskips, hpolicies, hrequests]
        · intro service inst
          rw [isOfferAllowed_some, isOfferAllowed_some, hskips, hpolicies, hoffers]

/-- One policy among others. -/
theorem granted_middle (ps qs : List Policy) (p : Policy) (entry : (ℕ × ℕ) × Access) (flag : Bool) :
    granted (ps ++ p :: qs) entry flag =
      (granted (ps ++ qs) entry flag || p.grants entry.1 entry.2 flag) := by
  simp only [granted, any_append, any_cons]
  rw [Bool.or_left_comm, Bool.or_comm, Bool.or_assoc]

theorem offered_middle (ps qs : List Policy) (p : Policy) (credentials : ℕ × ℕ) (service inst : ℕ) :
    offered (ps ++ p :: qs) credentials service inst =
      (offered (ps ++ qs) credentials service inst || p.grantsOffer credentials service inst) := by
  simp only [offered, any_append, any_cons]
  rw [Bool.or_left_comm, Bool.or_comm, Bool.or_assoc]

/-- A policy for one user and group says nothing about others. -/
theorem grants_others {p : Policy} (hwho : p.allowWho = true)
    (hcredentials : ∀ x y, p.hasUidGid x y = true ↔ x = uid ∧ y = gid) {credentials : ℕ × ℕ}
    (hne : credentials ≠ (uid, gid)) : (∀ key flag, p.grants credentials key flag = false) ∧
      ∀ service inst, p.grantsOffer credentials service inst = false := by
  have hid : p.hasUidGid credentials.1 credentials.2 = false := by
    rw [← Bool.not_eq_true, hcredentials]
    rintro ⟨rfl, rfl⟩
    exact hne rfl
  constructor
  · intro key flag
    simp [Policy.grants, hwho, hid]
  · intro service inst
    simp [Policy.grantsOffer, hwho, hid]

/-- A policy of its own adds its rights. -/
theorem addsExactly_push (hpolicy : policy.AllowsFor uid gid) :
    AddsExactly m (m.withPolicies uid gid (m.anyClientPolicies ++ [policy])) uid gid policy := by
  have hgranted : ∀ entry flag, granted (m.anyClientPolicies ++ [policy]) entry flag =
      (granted m.anyClientPolicies entry flag || policy.grants entry.1 entry.2 flag) := by
    intro entry flag
    rw [granted_middle, append_nil]
  have hoffered : ∀ credentials service inst,
      offered (m.anyClientPolicies ++ [policy]) credentials service inst =
        (offered m.anyClientPolicies credentials service inst ||
          policy.grantsOffer credentials service inst) := by
    intro credentials service inst
    rw [offered_middle, append_nil]
  rw [addsExactly_iff]
  · intro _
    exact ⟨fun key _ flag => hgranted _ flag, fun service _ inst _ => hoffered _ service inst⟩
  · intro credentials hne
    obtain ⟨hrequests, hoffers⟩ := grants_others hpolicy.allowWho hpolicy.credentials hne
    constructor
    · intro key flag
      rw [hgranted, hrequests, Bool.or_false]
    · intro service inst
      rw [hoffered, hoffers, Bool.or_false]

/-- **Extending a policy** for the user and group adds the rights of the update iff the policy
allows, or the others cover the update. -/
theorem addsExactly_merge_iff {ps qs : List Policy} (hsingle : isSingle itsMatching uid gid = true)
    (hwho : itsMatching.allowWho = true) (hpolicy : policy.AllowsFor uid gid)
    (hpolicies : m.anyClientPolicies = ps ++ itsMatching :: qs) :
    AddsExactly m (m.withPolicies uid gid (ps ++ mergePolicy itsMatching policy :: qs)) uid gid
        policy ↔ (m.Active →
        itsMatching.allowWhat = true ∨ Covered (ps ++ qs) itsMatching policy uid gid) := by
  have hcredentials := hasUidGid_of_isSingle hsingle
  have hid : itsMatching.hasUidGid uid gid = true := (hcredentials uid gid).mpr ⟨rfl, rfl⟩
  rw [addsExactly_iff, hpolicies]
  · refine forall_congr' fun _ => ?_
    simp only [granted_middle, offered_middle, grants_merge_iff hwho hid hpolicy,
      grantsOffer_merge_iff hwho hid hpolicy]
    constructor
    · rintro ⟨hrequests, hoffers⟩
      by_cases hwhat : itsMatching.allowWhat = true
      · exact Or.inl hwhat
      · refine Or.inr ⟨fun key hkey flag => ?_, fun service hservice inst hinst => ?_⟩
        · exact (hrequests key hkey flag).resolve_left hwhat
        · exact (hoffers service hservice inst hinst).resolve_left hwhat
    · rintro (hwhat | hcovered)
      · exact ⟨fun _ _ _ => Or.inl hwhat, fun _ _ _ _ => Or.inl hwhat⟩
      · exact ⟨fun key hkey flag => Or.inr (hcovered.requests key hkey flag),
          fun service hservice inst hinst => Or.inr (hcovered.offers service hservice inst hinst)⟩
  · intro credentials hne
    obtain ⟨hrequests, hoffers⟩ := grants_others hwho hcredentials hne
    obtain ⟨hrequests', hoffers'⟩ :=
      grants_others (p := mergePolicy itsMatching policy) hwho hcredentials hne
    rw [hpolicies]
    constructor
    · intro key flag
      rw [granted_middle, granted_middle, hrequests, hrequests']
    · intro service inst
      rw [offered_middle, offered_middle, hoffers, hoffers']

/-- **What an update adds**: the answers of `update_security_policy`'s result are those from before
together with those of the new policy, and other users and groups see no change, iff the update is
not merged into denials that the other policies do not make up for. -/
theorem update_adds_rights_iff (m : Manager) (uid gid : ℕ) (policy : Policy)
    (hpolicy : policy.AllowsFor uid gid) : ∃ m', m.updateSecurityPolicy uid gid policy = .ok m' ∧
      (AddsExactly m m' uid gid policy ↔ m.MergesIntoAllowed uid gid policy) := by
  unfold updateSecurityPolicy MergesIntoAllowed
  dsimp only
  generalize hother : (fun p : Policy => !(isSingle p uid gid && p.allowWho == policy.allowWho)) =
    other
  have hsplit := takeWhile_append_dropWhile (p := other) (l := m.anyClientPolicies)
  rcases hdrop : m.anyClientPolicies.dropWhile other with _ | ⟨itsMatching, rest⟩
  · exact ⟨_, rfl, iff_of_true (addsExactly_push hpolicy) fun _ => trivial⟩
  · dsimp only
    rw [hdrop] at hsplit
    rw [if_neg (by rw [hpolicy.not_hangs]; exact Bool.false_ne_true)]
    -- the search stopped at a policy for the user and group
    have hfound : other itsMatching = false := by
      have hhead := List.head?_dropWhile_not other m.anyClientPolicies
      rw [hdrop] at hhead
      simpa using hhead
    have hmatching : isSingle itsMatching uid gid = true ∧ itsMatching.allowWho = true := by
      rw [← hother] at hfound
      simpa [hpolicy.allowWho] using hfound
    exact ⟨_, rfl, addsExactly_merge_iff hmatching.1 hmatching.2 hpolicy hsplit.symm⟩

/-! ### An update that takes rights away -/

/-- The credentials of user 1000 and group 100. -/
def credentialsOne : SetMap 32 := add empty (.closed 1000 1000) (add empty (.closed 100 100) ())

/-- Every method of every instance of the service. -/
def allOf (service : ℕ) : Requests :=
  add empty (.closed service service) (add empty (.closed 1 0xFFFF) (add empty (.closed 1 0xFFFF) ()))

/-- The user may request another service. -/
def allowOther : Policy := ⟨credentialsOne, true, allOf 0x1111, empty, true⟩

/-- The user may request all services but one. -/
def denyOne : Policy := ⟨credentialsOne, true, allOf 0x1111, empty, false⟩

/-- The user may request one service. -/
def allowOne : Policy := ⟨credentialsOne, true, allOf 0x2222, empty, true⟩

/-- What is requested of a service, with any containers. -/
theorem has₃_allOf {service : ℕ} (h : service < 2 ^ 16) (s : ℕ) :
    (allOf service).has₃ s 1 1 = decide (s = service) := by
  have hall : Proper 16 (.closed 1 0xFFFF) := proper_closed.mpr ⟨by decide, by decide⟩
  rw [allOf, has₃_add (proper_single h), has₂_add hall,
    has_add hall]
  simp [Interval.contains_single]

/-- The credentials are single ones: a single number is stored as it was given. -/
theorem isSingle_credentialsOne {p : Policy} (h : p.credentials = credentialsOne) :
    isSingle p 1000 100 = true := by
  generalize hset : (add empty (.closed 100 100) () : IntervalSet 32) = gids
  have hgids : segments gids = [(.closed 100 100, ())] := by
    rw [← hset]
    exact segments_add_single (by decide) (rfl : Codomain.Mem () [])
  have hmem : Codomain.Mem gids [100] := by
    refine mem_set.mpr ⟨100, rfl, ?_⟩
    simp [has_iff, hgids, Interval.contains_single]
  have huids : segments p.credentials = [(.closed 1000 1000, gids)] := by
    rw [h, credentialsOne, hset]
    exact segments_add_single (by decide) hmem
  simp [isSingle, size, huids, hgids, Interval.closed, Interval.start, Interval.stop]

/-- The policy is one for an update. -/
theorem allowOne_allowsFor : allowOne.AllowsFor 1000 100 where
  allowWho := rfl
  allowWhat := rfl
  credentials := hasUidGid_of_isSingle (isSingle_credentialsOne rfl)
  requests := by
    have hall : Proper 16 (.closed 1 0xFFFF) := proper_closed.mpr ⟨by decide, by decide⟩
    have hsegments : segments (allOf 0x2222) = [(.closed 0x2222 0x2222, _)] :=
      segments_add_single (by decide) (mem_map.mpr ⟨1, 1, rfl, by
        simp [has₂_add hall, has_add hall]⟩)
    intro r hr
    rw [allowOne, hsegments, mem_singleton] at hr
    rw [hr]
    exact Nat.le_of_ble_eq_true rfl
  offers := by simp [allowOne, segments_empty]

/-- An update of policies that all allow something extends one that allows. -/
theorem mergesIntoAllowed_of_forall (h : ∀ p ∈ m.anyClientPolicies, p.allowWhat = true) :
    m.MergesIntoAllowed uid gid policy := by
  intro _
  split
  · trivial
  · rename_i itsMatching rest hdrop
    refine Or.inl (h itsMatching ?_)
    exact (dropWhile_sublist _).mem (hdrop ▸ mem_cons_self)

/-- The only policy is extended if it has the credentials of the update. -/
theorem updateSecurityPolicy_single {p : Policy} (hsingle : isSingle p uid gid = true)
    (hwho : p.allowWho = true) (hpolicy : policy.AllowsFor uid gid) :
    (fresh true true [p]).updateSecurityPolicy uid gid policy =
      .ok ((fresh true true [p]).withPolicies uid gid [mergePolicy p policy]) := by
  simp [updateSecurityPolicy, fresh, withPolicies, hsingle, hwho, hpolicy.allowWho,
    hpolicy.not_hangs]

/-- With any containers, the service is added to those that are denied. -/
theorem denyOne_takes_right_away :
    (fresh true true [denyOne]).evaluate (some ⟨1000, 100, secPortUnused⟩) ⟨0x2222, 1, 1⟩ false =
      true ∧ allowOne.grants (1000, 100) ⟨0x2222, 1, 1⟩ false = true ∧
    ∃ m', (fresh true true [denyOne]).updateSecurityPolicy 1000 100 allowOne = .ok m' ∧
      m'.evaluate (some ⟨1000, 100, secPortUnused⟩) ⟨0x2222, 1, 1⟩ false = false := by
  have hsingle : isSingle denyOne 1000 100 = true := isSingle_credentialsOne rfl
  have hid : denyOne.hasUidGid 1000 100 = true := (hasUidGid_of_isSingle hsingle 1000 100).mpr ⟨rfl, rfl⟩
  have hdeny : denyOne.isMatching 0x2222 1 1 false = false := has₃_allOf (by decide) 0x2222
  have hallow : allowOne.isMatching 0x2222 1 1 false = true := has₃_allOf (by decide) 0x2222
  have hanswer : ∀ {m : Manager} {p : Policy}, m.Active → m.anyClientPolicies = [p] →
      m.evaluate (some ⟨1000, 100, secPortUnused⟩) ⟨0x2222, 1, 1⟩ false =
        p.grants (1000, 100) ⟨0x2222, 1, 1⟩ false := by
    rintro m p ⟨henabled, hcheck⟩ hp
    simp [evaluate, henabled, hcheck, hp]
  refine ⟨?_, ?_, _, updateSecurityPolicy_single hsingle rfl allowOne_allowsFor, ?_⟩
  · rw [hanswer ⟨rfl, rfl⟩ rfl, grants_of_hasUidGid rfl hid, hdeny]
    rfl
  · rw [grants_of_hasUidGid rfl ((allowOne_allowsFor.credentials 1000 100).mpr ⟨rfl, rfl⟩), hallow]
    rfl
  · have hmerged : (mergePolicy denyOne allowOne).hasUidGid 1000 100 = true := hid
    rw [hanswer ⟨rfl, rfl⟩ rfl, grants_of_hasUidGid rfl hmerged, isMatching_mergePolicy, hallow,
      Bool.or_true]
    rfl

end Manager

end containers

namespace Manager

open scoped Icl.Pointwise

/-- An update extends a policy that allows another service. -/
theorem update_adds_rights_iff_allowed :
    ∃ m', (fresh true true [allowOther]).updateSecurityPolicy 1000 100 allowOne = .ok m' ∧
      AddsExactly (fresh true true [allowOther]) m' 1000 100 allowOne := by
  obtain ⟨m', hupdate, hiff⟩ :=
    update_adds_rights_iff (fresh true true [allowOther]) 1000 100 allowOne allowOne_allowsFor
  refine ⟨m', hupdate, hiff.mpr (mergesIntoAllowed_of_forall ?_)⟩
  intro p hp
  obtain rfl := mem_singleton.mp hp
  rfl

/-- After an update that is to allow service `0x2222`, a user who could request it cannot: the
service has been added to those that are denied. -/
theorem update_takes_right_away :
    (fresh true true [denyOne]).evaluate (some ⟨1000, 100, secPortUnused⟩) ⟨0x2222, 1, 1⟩ false =
      true ∧ allowOne.grants (1000, 100) ⟨0x2222, 1, 1⟩ false = true ∧
    ∃ m', (fresh true true [denyOne]).updateSecurityPolicy 1000 100 allowOne = .ok m' ∧
      m'.evaluate (some ⟨1000, 100, secPortUnused⟩) ⟨0x2222, 1, 1⟩ false = false :=
  denyOne_takes_right_away

end Manager

end SomeipTunnel.Security
