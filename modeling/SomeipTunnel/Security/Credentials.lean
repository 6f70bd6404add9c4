import SomeipTunnel.Lib.Table
import SomeipTunnel.Security.Manager

/-!
# The credentials of clients

The policy manager remembers the credentials of each client (`ids_`) and the clients of each
credentials (`sec_client_to_clients_`). `check_credentials` stores a client in both maps when a policy
accepts it, and `remove_client_to_sec_client_mapping` takes it out of both.

* `checkCredentials_effect`: all that a check can do to the two maps.
* `inverse_iff`: the maps stay inverse to each other as long as no client is accepted with other
  credentials than it is stored with. Where one is, the old set keeps it.

The credentials of a client on this host have the port `VSOMEIP_SEC_PORT_UNUSED`, and only such are
stored; the host that `vsomeip_sec_client_t` also has is read for other ports only and left out. The
policies are those that the manager has at the time of the call, any at each call.
-/

namespace SomeipTunnel.Security

/-- Source: `policy_manager_impl.hpp`, `ids_` and `sec_client_to_clients_` -/
structure Credentials where
  ids : AList fun _ : ℕ => SecClient
  secClientToClients : AList fun _ : SecClient => Finset ℕ

/-- Source: `utility::compare`, for the credentials of clients on this host -/
def compare (lhs rhs : SecClient) : Bool :=
  lhs.port == rhs.port && (lhs.user == rhs.user && lhs.group == rhs.group)

/-- The order of the map.
Source: `policy_manager_impl.hpp`, `vsomeip_sec_client_comparator_t`, for the same credentials -/
def comparator (lhs rhs : SecClient) : Bool :=
  lhs.port < rhs.port ||
    lhs.port == rhs.port && (lhs.user < rhs.user || lhs.user == rhs.user && lhs.group < rhs.group)

theorem compare_iff {lhs rhs : SecClient} : compare lhs rhs = true ↔ lhs = rhs := by
  obtain ⟨user, group, port⟩ := lhs
  obtain ⟨user', group', port'⟩ := rhs
  simp only [compare, Bool.and_eq_true, beq_iff_eq, SecClient.mk.injEq]
  exact ⟨fun ⟨h₁, h₂, h₃⟩ => ⟨h₂, h₃, h₁⟩, fun ⟨h₂, h₃, h₁⟩ => ⟨h₁, h₂, h₃⟩⟩

namespace Credentials

/-- Source: `policy_manager_impl.cpp`, `store_client_to_sec_client_mapping` -/
def storeClientToSecClientMapping (m : Credentials) (client : ℕ) (secClient : SecClient) :
    Bool × Credentials :=
  if secClient.port = secPortUnused then
    match m.ids.lookup client with
    | some foundClient =>
        if !compare foundClient secClient then
          (true, { m with ids := m.ids.insert client secClient })
        else (true, m)
    | none => (true, { m with ids := m.ids.insert client secClient })
  else (false, m)

/-- Source: `policy_manager_impl.cpp`, `store_sec_client_to_client_mapping` -/
def storeSecClientToClientMapping (m : Credentials) (secClient : SecClient) (client : ℕ) :
    Credentials :=
  if secClient.port = secPortUnused then
    match m.secClientToClients.lookup secClient with
    | some clients =>
        { m with secClientToClients := m.secClientToClients.insert secClient (insert client clients) }
    | none => { m with secClientToClients := m.secClientToClients.insert secClient {client} }
  else m

/-- Take a client out of the set of its credentials, and the set out of the map when it gets empty.
Source: `policy_manager_impl.cpp`, `remove_client_to_sec_client_mapping` -/
def eraseClient (m : Credentials) (secClient : SecClient) (clients : Finset ℕ) (client : ℕ) :
    Credentials :=
  if clients.erase client = ∅ then
    { m with secClientToClients := m.secClientToClients.erase secClient }
  else
    { m with secClientToClients := m.secClientToClients.insert secClient (clients.erase client) }

/-- The first credentials, in the order of the map, whose set has the client.
Source: `policy_manager_impl.cpp`, `remove_client_to_sec_client_mapping`, the loop -/
def firstWith (m : Credentials) (client : ℕ) : Option (SecClient × Finset ℕ) :=
  m.secClientToClients.entries.foldl (fun first e =>
    if client ∈ e.2 then
      match first with
      | some f => if comparator e.1 f.1 then some (e.1, e.2) else some f
      | none => some (e.1, e.2)
    else first) none

/-- Source: `policy_manager_impl.cpp`, `remove_client_to_sec_client_mapping` -/
def removeClientToSecClientMapping (m : Credentials) (client : ℕ) : Bool × Credentials :=
  match m.ids.lookup client with
  | some itsSecClient =>
      let m := { m with ids := m.ids.erase client }
      match m.secClientToClients.lookup itsSecClient with
      | some clients =>
          if client ∈ clients then (true, m.eraseClient itsSecClient clients client) else (false, m)
      | none => (false, m)
  | none =>
      match m.firstWith client with
      | some (secClient, clients) => (false, m.eraseClient secClient clients client)
      | none => (false, m)

/-- A policy accepts the user and the group.
Source: `policy_manager_impl.cpp`, `check_credentials`, the loop over the policies -/
def accepts [Icl.Containers] (manager : Manager) (secClient : SecClient) : Bool :=
  manager.anyClientPolicies.any fun p =>
    let hasId := p.hasUidGid secClient.user secClient.group
    (hasId && p.allowWho) || (!hasId && !p.allowWho)

/-- Source: `policy_manager_impl.cpp`, `check_credentials` -/
def checkCredentials [Icl.Containers] (m : Credentials) (manager : Manager) (client : ℕ)
    (secClient : Option SecClient) : Bool × Credentials :=
  if !manager.policyEnabled then (true, m)
  else
    match secClient with
    | none => (true, m)
    | some secClient =>
        if secClient.port ≠ secPortUnused then (true, m)
        else if accepts manager secClient then
          match m.storeClientToSecClientMapping client secClient with
          | (false, m) => (!manager.checkCredentials, m)
          | (true, m) => (true, m.storeSecClientToClientMapping secClient client)
        else (!manager.checkCredentials, m)

/-! ### Runs -/

/-- The calls; each check finds the policies that the manager has at that time. -/
inductive Call [Icl.Containers]
  | checkCredentials (manager : Manager) (client : ℕ) (secClient : Option SecClient)
  | removeClientToSecClientMapping (client : ℕ)

/-- One call. -/
def step [Icl.Containers] (m : Credentials) : Call → Except Empty (Bool × Credentials)
  | .checkCredentials manager client secClient => .ok (m.checkCredentials manager client secClient)
  | .removeClientToSecClientMapping client => .ok (m.removeClientToSecClientMapping client)

/-- The maps of a new manager. -/
def start : Credentials := ⟨∅, ∅⟩

/-- The clients of the credentials. -/
def clientsOf (m : Credentials) (secClient : SecClient) : Finset ℕ :=
  (m.secClientToClients.lookup secClient).getD ∅

/-- The maps are inverse to each other, and no set is empty. -/
structure Inverse (m : Credentials) : Prop where
  mem_iff : ∀ client secClient,
    client ∈ m.clientsOf secClient ↔ m.ids.lookup client = some secClient
  nonempty : ∀ secClient clients,
    m.secClientToClients.lookup secClient = some clients → clients ≠ ∅

/-- The call stores a client that is stored with other credentials. -/
def Overwrites [Icl.Containers] (m : Credentials) : Call → Prop
  | .checkCredentials manager client (some secClient) =>
      manager.policyEnabled = true ∧ secClient.port = secPortUnused ∧
        accepts manager secClient = true ∧
          ∃ found ∈ m.ids.lookup client, compare found secClient = false
  | _ => False

/-! ### What a call does -/

/-- A client is stored in both maps. -/
structure Stores (m m' : Credentials) (client : ℕ) (secClient : SecClient) : Prop where
  ids : ∀ c, m'.ids.lookup c = if c = client then some secClient else m.ids.lookup c
  sets : ∀ s, m'.secClientToClients.lookup s =
    if s = secClient then some (insert client (m.clientsOf secClient))
    else m.secClientToClients.lookup s

/-- A client is taken out of a set. -/
theorem lookup_eraseClient (m : Credentials) (secClient : SecClient) (clients : Finset ℕ)
    (client : ℕ) (s : SecClient) : (m.eraseClient secClient clients client).secClientToClients.lookup s =
      if s = secClient then if clients.erase client = ∅ then none else some (clients.erase client)
      else m.secClientToClients.lookup s := by
  unfold eraseClient
  split_ifs with hempty hs hs
  · rw [hs]
    exact AList.lookup_erase ..
  · exact AList.lookup_erase_ne hs
  · rw [hs]
    exact AList.lookup_insert ..
  · exact AList.lookup_insert_ne hs

theorem clientsOf_eraseClient (m : Credentials) (secClient : SecClient) (clients : Finset ℕ)
    (client : ℕ) (s : SecClient) : (m.eraseClient secClient clients client).clientsOf s =
      if s = secClient then clients.erase client else m.clientsOf s := by
  unfold clientsOf
  rw [lookup_eraseClient]
  split_ifs with hs hempty
  · exact hempty.symm
  · rfl
  · rfl

@[simp] theorem ids_eraseClient (m : Credentials) (secClient : SecClient) (clients : Finset ℕ)
    (client : ℕ) : (m.eraseClient secClient clients client).ids = m.ids := by
  unfold eraseClient
  split_ifs <;> rfl

variable {m m' : Credentials} {secClient : SecClient} {client : ℕ}

theorem storeClient_eq (m : Credentials) (client : ℕ) (hport : secClient.port = secPortUnused) :
    ∃ m', m.storeClientToSecClientMapping client secClient = (true, m') ∧
      m'.secClientToClients = m.secClientToClients ∧
      ∀ c, m'.ids.lookup c = if c = client then some secClient else m.ids.lookup c := by
  have hinsert : ∀ c, (m.ids.insert client secClient).lookup c =
      if c = client then some secClient else m.ids.lookup c :=
    fun c => Table.lookup_put m.ids client c (some secClient)
  unfold storeClientToSecClientMapping
  rw [if_pos hport]
  rcases hfound : m.ids.lookup client with - | found
  · exact ⟨_, rfl, rfl, hinsert⟩
  · dsimp only
    split_ifs with hcompare
    · exact ⟨_, rfl, rfl, hinsert⟩
    · -- the client is stored with these credentials already
      refine ⟨_, rfl, rfl, fun c => ?_⟩
      have heq : found = secClient := compare_iff.mp (by simpa using hcompare)
      split_ifs with hc
      · rw [hc, hfound, heq]
      · rfl

theorem storeSecClient_sets (m : Credentials) (client : ℕ) (hport : secClient.port = secPortUnused)
    (s : SecClient) :
    (m.storeSecClientToClientMapping secClient client).secClientToClients.lookup s =
      if s = secClient then some (insert client (m.clientsOf secClient))
      else m.secClientToClients.lookup s := by
  unfold storeSecClientToClientMapping clientsOf
  rw [if_pos hport]
  rcases hfound : m.secClientToClients.lookup secClient with - | clients
  · exact Table.lookup_put m.secClientToClients secClient s (some {client})
  · exact Table.lookup_put m.secClientToClients secClient s (some (insert client clients))

theorem storeSecClient_ids (m : Credentials) (client : ℕ) (secClient : SecClient) :
    (m.storeSecClientToClientMapping secClient client).ids = m.ids := by
  unfold storeSecClientToClientMapping
  split_ifs
  · cases m.secClientToClients.lookup secClient <;> rfl
  · rfl

/-- **All that a check does**: it stores the client under credentials that a policy accepts, or does
nothing. -/
theorem checkCredentials_effect [Icl.Containers] (m : Credentials) (manager : Manager)
    (client : ℕ) (secClient : Option SecClient) :
    (∃ s, secClient = some s ∧ manager.policyEnabled = true ∧ s.port = secPortUnused ∧
        accepts manager s = true ∧
        Stores m (m.checkCredentials manager client secClient).2 client s) ∨
      (¬ m.Overwrites (.checkCredentials manager client secClient) ∧
        (m.checkCredentials manager client secClient).2 = m) := by
  unfold checkCredentials
  rcases hen : manager.policyEnabled with - | -
  · refine Or.inr ⟨fun h => ?_, rfl⟩
    rcases secClient with - | s
    · exact h
    · exact Bool.false_ne_true (hen.symm.trans h.1)
  rcases secClient with - | s
  · exact Or.inr ⟨id, rfl⟩
  by_cases hport : s.port = secPortUnused
  · rcases hacc : accepts manager s with - | -
    · refine Or.inr ⟨fun h => Bool.false_ne_true (hacc.symm.trans h.2.2.1), ?_⟩
      simp [hport, hacc]
    · refine Or.inl ⟨s, rfl, rfl, hport, hacc, ?_⟩
      obtain ⟨m₁, hstore, hsets, hids⟩ := storeClient_eq m client hport
      simp only [Bool.not_true, Bool.false_eq_true, if_false, ne_eq, hport, not_true, hacc, if_true,
        hstore]
      refine ⟨fun c => ?_, fun s' => ?_⟩
      · rw [storeSecClient_ids, hids]
      · rw [storeSecClient_sets m₁ client hport, clientsOf, clientsOf, hsets]
  · refine Or.inr ⟨fun h => hport h.2.1, ?_⟩
    simp [hport]

/-! ### The invariant -/

theorem clientsOf_eq {s : SecClient} {clients : Finset ℕ}
    (h : m.secClientToClients.lookup s = some clients) : m.clientsOf s = clients := by
  rw [clientsOf, h]
  rfl

theorem Stores.clientsOf (h : Stores m m' client secClient) (s : SecClient) : m'.clientsOf s =
      if s = secClient then insert client (m.clientsOf secClient) else m.clientsOf s := by
  unfold Credentials.clientsOf
  rw [h.sets]
  split_ifs <;> rfl

/-- Storing a client that is new or has the credentials already keeps the maps inverse. -/
theorem Inverse.stores (h : m.Inverse) (hstores : Stores m m' client secClient)
    (hsame : ∀ found ∈ m.ids.lookup client, found = secClient) : m'.Inverse := by
  constructor
  · intro c s
    rw [hstores.clientsOf, hstores.ids]
    by_cases hs : s = secClient
    · rw [if_pos hs, Finset.mem_insert, h.mem_iff]
      by_cases hc : c = client
      · simp [hc, hs]
      · simp [hc, hs]
    · rw [if_neg hs, h.mem_iff]
      by_cases hc : c = client
      · rw [if_pos hc, hc]
        constructor
        · intro hfound
          exact absurd (hsame s hfound) hs
        · intro heq
          exact absurd (Option.some.inj heq).symm hs
      · rw [if_neg hc]
  · intro s clients hlookup
    rw [hstores.sets] at hlookup
    split_ifs at hlookup with hs
    · obtain rfl := Option.some.inj hlookup
      exact Finset.insert_ne_empty _ _
    · exact h.nonempty s clients hlookup

/-- Storing a client that has other credentials leaves it in their set. -/
theorem not_inverse_of_stores {found : SecClient} (h : m.Inverse)
    (hstores : Stores m m' client secClient) (hfound : found ∈ m.ids.lookup client)
    (hne : found ≠ secClient) : ¬ m'.Inverse := by
  intro h'
  have hmem : client ∈ m'.clientsOf found := by
    rw [hstores.clientsOf, if_neg hne]
    exact (h.mem_iff client found).mpr hfound
  have hids := (h'.mem_iff client found).mp hmem
  rw [hstores.ids, if_pos rfl] at hids
  exact hne (Option.some.inj hids).symm

theorem firstWith_eq_none
    (h : ∀ s clients, m.secClientToClients.lookup s = some clients → client ∉ clients) :
    m.firstWith client = none := by
  have hentries : ∀ e ∈ m.secClientToClients.entries, client ∉ e.2 :=
    fun e he => h e.1 e.2 (AList.mem_lookup_iff.mpr he)
  unfold firstWith
  generalize m.secClientToClients.entries = entries at hentries ⊢
  induction entries with
  | nil => rfl
  | cons e rest ih =>
      rw [List.foldl_cons, if_neg (hentries e List.mem_cons_self)]
      exact ih fun e' he' => hentries e' (List.mem_cons_of_mem _ he')

/-- **Taking a client out keeps the maps inverse.** -/
theorem Inverse.remove (h : m.Inverse) (client : ℕ) :
    (m.removeClientToSecClientMapping client).2.Inverse := by
  unfold removeClientToSecClientMapping
  rcases hfound : m.ids.lookup client with - | itsSecClient
  · -- no set has the client
    have hnone : m.firstWith client = none := by
      refine firstWith_eq_none fun s clients hlookup hmem => ?_
      rw [← clientsOf_eq hlookup, h.mem_iff, hfound] at hmem
      cases hmem
    rw [hnone]
    exact h
  · have hmem : client ∈ m.clientsOf itsSecClient := (h.mem_iff ..).mpr hfound
    rcases hlookup : m.secClientToClients.lookup itsSecClient with - | clients
    · rw [clientsOf, hlookup] at hmem
      cases hmem
    rw [clientsOf_eq hlookup] at hmem
    simp only [hlookup, hmem, if_true]
    have hids : ∀ c, (m.ids.erase client).lookup c =
        if c = client then none else m.ids.lookup c :=
      fun c => Table.lookup_put m.ids client c none
    constructor
    · intro c s
      rw [ids_eraseClient, clientsOf_eraseClient]
      rw [hids]
      by_cases hc : c = client
      · rw [if_pos hc, hc]
        refine iff_of_false (fun hmem' => ?_) (by simp)
        split_ifs at hmem' with hs
        · exact Finset.notMem_erase _ _ hmem'
        · exact hs (Option.some.inj (((h.mem_iff client s).mp hmem').symm.trans hfound))
      · rw [if_neg hc, ← h.mem_iff]
        split_ifs with hs
        · rw [hs, clientsOf_eq hlookup, Finset.mem_erase]
          exact and_iff_right hc
        · exact Iff.rfl
    · intro s clients' hlookup'
      rw [lookup_eraseClient] at hlookup'
      split_ifs at hlookup' with hs hempty
      · obtain rfl := Option.some.inj hlookup'
        exact hempty
      · exact h.nonempty s clients' hlookup'

/-- The maps of a new manager are inverse. -/
theorem inverse_start : start.Inverse :=
  ⟨fun _ _ => iff_of_false (Finset.notMem_empty _) (by simp [start]), fun _ _ h => by
    simp [start] at h⟩

section containers

variable [Icl.Containers]

/-- The maps are inverse behind the call. -/
def StaysInverse (m : Credentials) (call : Call) : Prop :=
  ∀ result m', m.step call = .ok (result, m') → m'.Inverse

theorem staysInverse_iff {call : Call} {out : Bool × Credentials}
    (h : m.step call = .ok out) : m.StaysInverse call ↔ out.2.Inverse := by
  refine ⟨fun hall => hall out.1 out.2 h, fun hinv result m' hstep => ?_⟩
  obtain rfl : out = (result, m') := Except.ok.inj (h.symm.trans hstep)
  exact hinv

/-- A call keeps inverse maps inverse iff it does not store a client with other credentials than it
has. -/
theorem Inverse.stays_iff (h : m.Inverse) (call : Call) :
    m.StaysInverse call ↔ ¬ m.Overwrites call := by
  cases call with
  | removeClientToSecClientMapping client =>
      exact iff_of_true ((staysInverse_iff rfl).mpr (h.remove client)) id
  | checkCredentials manager client secClient =>
      refine (staysInverse_iff rfl).trans ?_
      rcases checkCredentials_effect m manager client secClient with
        ⟨s, rfl, hen, hport, hacc, hstores⟩ | ⟨hnot, heq⟩
      · constructor
        · rintro hinv ⟨-, -, -, found, hfound, hcompare⟩
          refine not_inverse_of_stores h hstores hfound (fun hs => ?_) hinv
          exact Bool.false_ne_true (hcompare.symm.trans (compare_iff.mpr hs))
        · intro hnot
          refine h.stores hstores fun found hfound => ?_
          by_contra hne
          refine hnot ⟨hen, hport, hacc, found, hfound, ?_⟩
          exact Bool.eq_false_iff.mpr fun hc => hne (compare_iff.mp hc)
      · rw [heq]
        exact iff_of_true h hnot

/-- **When the maps stay inverse.** In every run of calls from a new manager, the maps are inverse
behind every call iff no call stores a client that is stored with other credentials. -/
theorem inverse_iff (calls : List Call) : StepRun.AllSteps step StaysInverse start calls ↔
      StepRun.AllSteps step (fun m call => ¬ m.Overwrites call) start calls :=
  StepRun.AllSteps.iff_of_invariant Inverse
    (fun _ call result m' h hC hstep => (h.stays_iff call).mpr hC result m' hstep)
    (fun _ call h => h.stays_iff call) inverse_start

/-- A manager with one policy, which denies nobody. -/
def everybody : Manager := ⟨true, true, [{ Policy.default with allowWho := false }], []⟩

/-- The policy accepts everybody, with any containers. -/
theorem accepts_everybody (secClient : SecClient) : accepts everybody secClient = true := by
  simp [accepts, everybody, Policy.hasUidGid, Policy.default]

/-- With any containers, a client that connects with other credentials than before breaks the maps. -/
theorem not_allSteps_everybody : ¬ StepRun.AllSteps step StaysInverse start
    [.checkCredentials everybody 1 (some ⟨1000, 100, secPortUnused⟩),
      .checkCredentials everybody 1 (some ⟨1001, 100, secPortUnused⟩)] := by
  intro h
  have hfirst := (staysInverse_iff rfl).mp h.1
  have hsecond := (h.2 _ _ rfl).1
  have hstored : (start.checkCredentials everybody 1 (some ⟨1000, 100, secPortUnused⟩)).2.ids.lookup
      1 = some ⟨1000, 100, secPortUnused⟩ := by
    have henabled : everybody.policyEnabled = true := rfl
    simp [checkCredentials, accepts_everybody, henabled, storeClientToSecClientMapping,
      storeSecClientToClientMapping, start]
    rfl
  exact (hfirst.stays_iff _).mp hsecond ⟨rfl, rfl, accepts_everybody _, _, hstored, by decide⟩

end containers

open scoped Icl.Pointwise

/-- **Changed credentials**: client 1 connects as user 1000 and again as user 1001. It is then stored
as user 1001 and still among the clients of user 1000. -/
theorem changed_credentials : ¬ StepRun.AllSteps step StaysInverse start
    [.checkCredentials everybody 1 (some ⟨1000, 100, secPortUnused⟩),
      .checkCredentials everybody 1 (some ⟨1001, 100, secPortUnused⟩)] :=
  not_allSteps_everybody

end Credentials

end SomeipTunnel.Security
