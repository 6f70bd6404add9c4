import SomeipTunnel.Routing.Delivery

/-!
# Removing a local client

`remove_local` takes the client out of the history of former offers. It collects the instances that
list the client, takes it out of each, and where nobody is left of an instance it erases the whole
service (`mem_listed_forgetClient`): the history of the other instances of the service goes with it.
`removal_is_local_iff`: when the others keep their history and what `is_response_allowed` answers
them. The routing client stands for the owner of an instance that nobody offers.

Source: vsomeip/implementation/routing/src/routing_manager_base.cpp
-/

namespace SomeipTunnel.Routing.Delivery

/-- The clients that the history lists for an instance. -/
def listed (history : History) (key : ℕ × ℕ) : Finset ℕ := (history.lookup key).getD ∅

variable {client x : ℕ} {history : History} {key k : ℕ × ℕ}

/-- Erasing the entries of a service, key by key. -/
theorem mem_listed_eraseService (service : ℕ) (keys : List (ℕ × ℕ)) :
    x ∈ listed (keys.foldl (fun h k => if k.1 = service then h.erase k else h) history) key ↔
      x ∈ listed history key ∧ (key.1 = service → key ∉ keys) := by
  induction keys generalizing history with
  | nil => simp
  | cons k keys ih =>
      rw [List.foldl_cons, ih]
      by_cases hk : k.1 = service
      · by_cases hkey : key = k
        · subst hkey
          simp [listed, hk]
        · simp [listed, hk, hkey]
      · have hne : key.1 = service → key ≠ k := by
          rintro hs rfl
          exact hk hs
        rw [if_neg hk, List.mem_cons, not_or]
        exact and_congr_right fun _ => forall_congr' fun hs => (and_iff_right (hne hs)).symm

theorem mem_keys_of_mem_listed (h : x ∈ listed history key) : key ∈ history.keys := by
  rw [← AList.mem_keys, ← AList.lookup_isSome]
  unfold listed at h
  rcases hlookup : history.lookup key with _ | clients
  · simp [hlookup] at h
  · rfl

/-- What one pass of the loop leaves. -/
theorem mem_listed_forget : x ∈ listed (forget client history k) key ↔
    x ∈ listed history key ∧ (key.1 = k.1 → (listed history k).erase client ≠ ∅) ∧
      (key = k → x ≠ client) := by
  have hrest : forget client history k =
      if (listed history k).erase client = ∅ then
        history.keys.foldl (fun h k' => if k'.1 = k.1 then h.erase k' else h) history
      else history.insert k ((listed history k).erase client) := rfl
  rw [hrest]
  split_ifs with hempty
  · rw [mem_listed_eraseService]
    refine and_congr_right fun hx => ?_
    have hkey := mem_keys_of_mem_listed hx
    constructor
    · intro h
      exact ⟨fun hs => absurd hkey (h hs), by rintro rfl; exact absurd hkey (h rfl)⟩
    · rintro ⟨h, -⟩ hs
      exact absurd hempty (h hs)
  · by_cases hkey : key = k
    · subst hkey
      have hlisted : listed (history.insert key ((listed history key).erase client)) key =
          (listed history key).erase client := by simp [listed]
      rw [hlisted, Finset.mem_erase]
      simp only [hempty, ne_eq, not_false_eq_true, implies_true, true_and, forall_const]
      exact and_comm
    · have hlisted : listed (history.insert k ((listed history k).erase client)) key =
          listed history key := by simp [listed, hkey]
      rw [hlisted]
      simp only [hempty, hkey, ne_eq, not_false_eq_true, implies_true, and_true,
        IsEmpty.forall_iff]

/-- What the loop leaves: a service is gone once one of its instances has run out of clients. -/
theorem mem_listed_foldl_forget (keys : List (ℕ × ℕ)) :
    x ∈ listed (keys.foldl (forget client) history) key ↔ x ∈ listed history key ∧
        (∀ k ∈ keys, key.1 = k.1 → (listed history k).erase client ≠ ∅) ∧
        (key ∈ keys → x ≠ client) := by
  -- on the last key, which meets what the ones before have left
  induction keys using List.reverseRecOn generalizing x key with
  | nil => simp
  | append_singleton keys k ih =>
      rw [List.foldl_append, List.foldl_cons, List.foldl_nil, mem_listed_forget, ih]
      have hlast : (listed (keys.foldl (forget client) history) k).erase client ≠ ∅ ↔
          (listed history k).erase client ≠ ∅ ∧
            ∀ k' ∈ keys, k.1 = k'.1 → (listed history k').erase client ≠ ∅ := by
        simp only [← Finset.nonempty_iff_ne_empty, Finset.Nonempty, Finset.mem_erase, ih]
        constructor
        · rintro ⟨y, hy, hlisted, hkept, -⟩
          exact ⟨⟨y, hy, hlisted⟩, hkept⟩
        · rintro ⟨⟨y, hy, hlisted⟩, hkept⟩
          exact ⟨y, hy, hlisted, hkept, fun _ => hy⟩
      rw [hlast]
      simp only [List.mem_append, List.mem_singleton]
      constructor
      · rintro ⟨⟨hx, hkeys, hmem⟩, hk, hkey⟩
        refine ⟨hx, ?_, ?_⟩
        · rintro k' (hk' | rfl) hs
          · exact hkeys k' hk' hs
          · exact (hk hs).1
        · rintro (hin | heq)
          · exact hmem hin
          · exact hkey heq
      · rintro ⟨hx, hkeys, hmem⟩
        refine ⟨⟨hx, fun k' hk' => hkeys k' (.inl hk'), fun hin => hmem (.inl hin)⟩, ?_,
          fun heq => hmem (.inr heq)⟩
        intro hs
        exact ⟨hkeys k (.inr rfl) hs, fun k' hk' hs' => hkeys k' (.inl hk') (hs.trans hs')⟩

/-- **The loop of `remove_local`**: the client is listed nowhere, and nobody is listed in a service
in which it was the only one of an instance. -/
theorem mem_listed_forgetClient : x ∈ listed (forgetClient client history) key ↔
    x ∈ listed history key ∧ x ≠ client ∧ ∀ k, key.1 = k.1 → listed history k ≠ {client} := by
  rw [forgetClient, mem_listed_foldl_forget]
  have hkeys : ∀ k, k ∈ history.keys.filter (fun key => client ∈ (history.lookup key).getD ∅) ↔
      client ∈ listed history k := by
    intro k
    rw [List.mem_filter, decide_eq_true_iff]
    exact and_iff_right_of_imp mem_keys_of_mem_listed
  simp only [hkeys]
  refine and_congr_right fun hx => ?_
  constructor
  · rintro ⟨hrest, hne⟩
    refine ⟨fun heq => hne (heq ▸ hx) heq, fun k hs hk => ?_⟩
    exact hrest k (by simp [hk]) hs (by simp [hk])
  · rintro ⟨hne, halone⟩
    refine ⟨fun k hk hs hempty => halone k hs ?_, fun _ => hne⟩
    exact Finset.Subset.antisymm (Finset.erase_eq_empty_iff _ _ |>.mp hempty |>.elim
      (fun h => h ▸ Finset.empty_subset _) (fun h => h.subset)) (Finset.singleton_subset_iff.mpr hk)

/-! ### What the others notice -/

/-- **The removal touches only the history of the client**: everybody else is listed where they were
listed and gets the same answers, and the client is listed nowhere. -/
structure RemovesOnly (d d' : Delivery) (client : ℕ) : Prop where
  others : ∀ x ≠ client, ∀ key, x ∈ d'.former key ↔ x ∈ d.former key
  gone : ∀ key, client ∉ d'.former key
  answers : ∀ x ≠ client, ∀ key mode,
    d'.isResponseAllowed mode x key = d.isResponseAllowed mode x key

/-- No instance that lists the client alone has a neighbour that lists somebody else. -/
def Neighbourly (d : Delivery) (client : ℕ) : Prop :=
  ∀ key, d.former key = {client} → ∀ key' : ℕ × ℕ, key'.1 = key.1 → d.former key' ⊆ {client}

/-- The routing client has offered what the client offers. -/
def Covered (d : Delivery) (client : ℕ) : Prop :=
  client ≠ routingClient → ∀ key, d.registry.owner key = some client →
    routingClient ∈ d.former key

variable {d : Delivery} {host : ℕ} {mode : SecurityMode}

/-- The dynamic test, as a proposition. -/
theorem isResponseAllowed_iff : d.isResponseAllowed mode x key = true ↔
    (mode.isSecurityEnabled = true → mode.isLocalRouting = true → mode.isSecurityAudit = true →
      x = d.findLocalClientUnlocked key ∨ x ∈ d.former key) := by
  unfold isResponseAllowed
  cases mode.isSecurityEnabled <;> cases mode.isLocalRouting <;> cases mode.isSecurityAudit <;>
    simp [or_iff_not_imp_left]

/-- Whom the test takes for the owner behind the removal. -/
theorem findLocalClientUnlocked_removeLocal :
    (d.ownerEvent host (.removeLocal client)).findLocalClientUnlocked key =
      if d.registry.owner key = some client then routingClient
      else d.findLocalClientUnlocked key := by
  have howner : (d.ownerEvent host (.removeLocal client)).registry.owner key =
      if d.registry.owner key = some client then none else d.registry.owner key :=
    Registry.owner_removeLocal d.registry client key
  rw [findLocalClientUnlocked, howner]
  split_ifs
  · rfl
  · rfl

theorem mem_former_removeLocal : x ∈ (d.ownerEvent host (.removeLocal client)).former key ↔
    x ∈ d.former key ∧ x ≠ client ∧ ∀ k, key.1 = k.1 → d.former k ≠ {client} :=
  mem_listed_forgetClient

/-- The removal of a local client touches only its own history iff no instance that lists it alone
has a neighbour in its service that lists somebody else, and the routing client has offered what the
client offers. -/
theorem removal_is_local_iff (d : Delivery) (host client : ℕ) :
    RemovesOnly d (d.ownerEvent host (.removeLocal client)) client ↔
      d.Neighbourly client ∧ d.Covered client := by
  constructor
  · intro h
    refine ⟨fun key hkey key' hs x hx => ?_, fun hne key howner => ?_⟩
    · by_contra hother
      have hne : x ≠ client := fun heq => hother (Finset.mem_singleton.mpr heq)
      exact (mem_former_removeLocal.mp ((h.others x hne key').mpr hx)).2.2 key hs hkey
    · -- in audit mode the routing client now passes for the owner
      let audit : SecurityMode := ⟨true, false, true, true, true⟩
      have hpasses : (d.ownerEvent host (.removeLocal client)).isResponseAllowed audit
          routingClient key = true := by
        refine isResponseAllowed_iff.mpr fun _ _ _ => .inl ?_
        rw [findLocalClientUnlocked_removeLocal, if_pos howner]
      rw [h.answers routingClient hne.symm key audit] at hpasses
      rcases isResponseAllowed_iff.mp hpasses rfl rfl rfl with hfind | hformer
      · rw [findLocalClientUnlocked, howner, Option.getD_some] at hfind
        exact absurd hfind hne.symm
      · exact hformer
  · rintro ⟨hneighbour, hcovered⟩
    have hothers : ∀ x ≠ client, ∀ key,
        x ∈ (d.ownerEvent host (.removeLocal client)).former key ↔ x ∈ d.former key := by
      intro x hne key
      refine mem_former_removeLocal.trans (and_iff_left_of_imp fun hx => ⟨hne, ?_⟩)
      intro k hs hk
      exact hne (Finset.mem_singleton.mp (hneighbour k hk key hs hx))
    refine ⟨hothers, fun key h => (mem_former_removeLocal.mp h).2.1 rfl, fun x hne key mode => ?_⟩
    rw [Bool.eq_iff_iff, isResponseAllowed_iff, isResponseAllowed_iff, hothers x hne,
      findLocalClientUnlocked_removeLocal]
    split_ifs with howner
    · -- nobody but the routing client gains by the missing owner, and it is listed anyway
      have hfind : d.findLocalClientUnlocked key = client := by
        rw [findLocalClientUnlocked, howner, Option.getD_some]
      rw [hfind]
      have hgain : x = routingClient ∨ x ∈ d.former key ↔ x = client ∨ x ∈ d.former key := by
        simp only [hne, false_or, or_iff_right_iff_imp]
        rintro rfl
        exact hcovered hne.symm key howner
      rw [hgain]
    · exact Iff.rfl

/-- Client 5 is the only one listed for instance 1 of a service, client 6 for instance 2: when client
5 is removed, client 6 is no longer listed and its answers are refused in audit mode. -/
theorem neighbours_history_lost :
    let history : History := AList.insert (0x1234, 2) {6} (AList.insert (0x1234, 1) {5} ∅)
    let d : Delivery := ⟨.empty, history⟩
    let mode : SecurityMode := ⟨true, false, true, true, true⟩
    d.isResponseAllowed mode 6 (0x1234, 2) = true ∧
      (d.ownerEvent 1 (.removeLocal 5)).isResponseAllowed mode 6 (0x1234, 2) = false ∧
      ¬ RemovesOnly d (d.ownerEvent 1 (.removeLocal 5)) 5 := by
  refine ⟨by decide, by decide, fun h => ?_⟩
  have hanswer := h.answers 6 (by decide) (0x1234, 2) ⟨true, false, true, true, true⟩
  revert hanswer
  decide

end SomeipTunnel.Routing.Delivery
