import SomeipTunnel.Lib.Run
import SomeipTunnel.Lib.Table

/-!
# Who owns a local service

An offer of a service instance that another application already offers, in the same version, is
decided in three steps: the owner is pinged and the offer becomes pending; an answer of the owner
rejects it; a client error of the owner (an unanswered ping among others) makes the routing manager
offer it again. `Registry` holds the tables behind this decision.

The `Tenures` keep beside the tables, for each instance, who was its owner last and whether there was
reason to replace it, and the clients whose offer was rejected because the owner answered.

* `Registry.handleLocalOfferService_spec`: what an offer does to the tables, and whom it replaces.
* `ownership_stable`: when an owner is replaced (**also if it cannot be sent a ping**), and how a
  client whose offer was rejected becomes the owner.

Source: vsomeip/implementation/routing/src/routing_manager_impl.cpp,
vsomeip/implementation/routing/src/routing_manager_stub.cpp
-/

namespace SomeipTunnel.Routing

open StepRun Table List

/-! ### The code -/

/-- Source: the tuples in `local_services_`. -/
structure LocalService where
  major : ℕ
  minor : ℕ
  client : ℕ
deriving DecidableEq

/-- Source: the tuples in `pending_offers_`; `previous` is the owner that was pinged. -/
structure PendingOffer where
  major : ℕ
  minor : ℕ
  client : ℕ
  previous : ℕ
deriving DecidableEq

/-- The arguments of `offer_service`; `key` is the service with the instance. -/
structure Offer where
  key : ℕ × ℕ
  major : ℕ
  minor : ℕ
  client : ℕ
deriving DecidableEq

/-- How `handle_local_offer_service` ends; it returns whether the offer is accepted. -/
inductive Verdict
  | offeredByItself
  | alreadyPinged
  | otherPending
  | pending
  | offeredByHost
  | mismatch
  | offeredRemotely
  | accepted
deriving DecidableEq

/-- What an offer is told by the rest of the routing manager: the result of
`routing_manager_base::offer_service`, and whether a ping is sent if one is tried. -/
structure OfferAnswers where
  baseOffer : Bool
  sent : Bool
deriving DecidableEq

/-- The tables. A table of tables of the source is a table with pairs as keys. -/
structure Registry where
  /-- Source: `local_services_`. -/
  localServices : AList fun _ : ℕ × ℕ => LocalService
  /-- Source: `pending_offers_`. -/
  pendingOffers : AList fun _ : ℕ × ℕ => PendingOffer
  /-- Source: the keys of `pinged_clients_`. -/
  pingedClients : List ℕ
  /-- The clients for which `find_local` finds an endpoint. -/
  endpoints : List ℕ
  /-- Source: the offers in `its_offers` of `handle_client_error` that have not been made again. -/
  reoffers : List Offer

namespace Registry

variable (r : Registry)

def empty : Registry := ⟨∅, ∅, [], [], []⟩

/-- Source: `routing_manager_stub::send_ping`. -/
def sendPing (client : ℕ) (sent : Bool) : Bool × Registry :=
  if client ∈ r.endpoints then
    if client ∈ r.pingedClients then (true, r)
    else (sent, { r with pingedClients := client :: r.pingedClients })
  else (false, r)

/-- The end of `handle_local_offer_service`. -/
def accept (o : Offer) (baseOffer : Bool) : Verdict × Registry :=
  if baseOffer then
    (.accepted,
      { r with localServices := r.localServices.insert o.key ⟨o.major, o.minor, o.client⟩ })
  else (.offeredRemotely, r)

/-- Source: `routing_manager_impl::handle_local_offer_service`, where another client owns the instance
in the same version and no offer of it is pending. -/
def challenge (host : ℕ) (stored : LocalService) (o : Offer) (answers : OfferAnswers) :
    Verdict × Registry :=
  if stored.client ∈ r.endpoints then
    let (hasSent, r') := r.sendPing stored.client answers.sent
    if hasSent then
      let p : PendingOffer := ⟨o.major, o.minor, o.client, stored.client⟩
      (.pending, { r' with pendingOffers := r'.pendingOffers.insert o.key p })
    else r'.accept o answers.baseOffer
  else if stored.client = host then (.offeredByHost, r)
  else r.accept o answers.baseOffer

/-- Source: `routing_manager_impl::handle_local_offer_service`. The two sections of
`pending_offers_mutex_` are one step: what can come between them only takes entries out. -/
def handleLocalOfferService (host : ℕ) (o : Offer) (answers : OfferAnswers) :
    Verdict × Registry :=
  match r.localServices.lookup o.key with
  | some stored =>
      if stored.major = o.major ∧ stored.minor = o.minor ∧ stored.client = o.client then
        (.offeredByItself, r)
      else if stored.major = o.major ∧ stored.minor = o.minor ∧ stored.client ≠ o.client then
        match r.pendingOffers.lookup o.key with
        | some p => if p.client = o.client then (.alreadyPinged, r) else (.otherPending, r)
        | none => r.challenge host stored o answers
      else (.mismatch, r)
  | none => r.accept o answers.baseOffer

/-- Source: `routing_manager_impl::on_stop_offer_service`, the part on `local_services_`. -/
def onStopOfferService (client : ℕ) (key : ℕ × ℕ) : Registry :=
  match r.localServices.lookup key with
  | some stored =>
      if stored.client = client then { r with localServices := r.localServices.erase key } else r
  | none => r

/-- Source: `routing_manager_base::remove_local`. -/
def removeLocal (client : ℕ) : Registry :=
  { r with
    endpoints := r.endpoints.filter (· ≠ client)
    localServices := filterMap (fun s => if s.client = client then none else some s)
      r.localServices }

/-- The pending offers without those that wait for a client. -/
def notWaitingFor (client : ℕ) : AList fun _ : ℕ × ℕ => PendingOffer :=
  filterMap (fun p => if p.previous = client then none else some p) r.pendingOffers

/-- The pending offers that wait for a client, as offers. -/
def waitingFor (client : ℕ) : List Offer :=
  r.pendingOffers.entries.filterMap fun e =>
    if e.2.previous = client then some ⟨e.1, e.2.major, e.2.minor, e.2.client⟩ else none

/-- Source: `routing_manager_impl::on_pong`. -/
def onPong (client : ℕ) : Registry := { r with pendingOffers := r.notWaitingFor client }

/-- Source: `routing_manager_impl::handle_client_error`, up to offering again. -/
def handleClientError (client : ℕ) : Registry :=
  { r with
    pendingOffers := r.notWaitingFor client
    reoffers := r.reoffers ++ r.waitingFor client }

end Registry

/-- What happens to the routing manager. -/
inductive OwnerEvent
  /-- An application offers a service. -/
  | offer (o : Offer) (answers : OfferAnswers)
  /-- The offer at a position of `its_offers` is made again. -/
  | reoffer (i : ℕ) (answers : OfferAnswers)
  | stopOffer (client : ℕ) (key : ℕ × ℕ)
  | connect (client : ℕ)
  | disconnect (client : ℕ)
  | removeLocal (client : ℕ)
  /-- `routing_manager_stub::remove_from_pinged_clients` for a pong. -/
  | unping (client : ℕ)
  /-- `routing_manager_impl::on_pong`. -/
  | pong (client : ℕ)
  /-- `routing_manager_stub::on_ping_timer_expired` finds the client. -/
  | pingTimeout (client : ℕ)
  /-- `routing_manager_impl::handle_client_error`. -/
  | clientError (client : ℕ)

/-- The offer an event makes. -/
def Registry.offerOf (r : Registry) : OwnerEvent → Option (Offer × OfferAnswers)
  | .offer o answers => some (o, answers)
  | .reoffer i answers => (r.reoffers[i]?).map (·, answers)
  | _ => none

/-- One step, and how an offer ends. -/
def Registry.step (host : ℕ) (r : Registry) : OwnerEvent → Option Verdict × Registry
  | .offer o answers =>
      let out := r.handleLocalOfferService host o answers
      (some out.1, out.2)
  | .reoffer i answers =>
      match r.reoffers[i]? with
      | some o =>
          let out := { r with reoffers := r.reoffers.eraseIdx i }.handleLocalOfferService host o
            answers
          (some out.1, out.2)
      | none => (none, r)
  | .stopOffer client key => (none, r.onStopOfferService client key)
  | .connect client => (none, { r with endpoints := client :: r.endpoints })
  | .disconnect client => (none, { r with endpoints := r.endpoints.filter (· ≠ client) })
  | .removeLocal client => (none, r.removeLocal client)
  | .unping client => (none, { r with pingedClients := r.pingedClients.erase client })
  | .pong client => (none, r.onPong client)
  | .pingTimeout client => (none, { r with pingedClients := r.pingedClients.erase client })
  | .clientError client => (none, r.handleClientError client)

/-! ### What an offer does -/

variable {p : PendingOffer} {o : Offer}

namespace Registry

variable {r : Registry}

/-- The owner has an endpoint and a ping to it is not sent. -/
def Unsent (r : Registry) (client : ℕ) (answers : OfferAnswers) : Prop :=
  client ∈ r.endpoints ∧ client ∉ r.pingedClients ∧ answers.sent = false

/-- What is left waits for somebody else. -/
theorem pending_of_notWaitingFor {client : ℕ} {key : ℕ × ℕ}
    (h : (r.notWaitingFor client).lookup key = some p) :
    r.pendingOffers.lookup key = some p ∧ p.previous ≠ client := by
  rw [notWaitingFor, lookup_filterMap] at h
  obtain ⟨q, hq, hp⟩ := Option.bind_eq_some_iff.mp h
  split_ifs at hp with hprevious
  cases hp
  exact ⟨hq, hprevious⟩

/-- An offer that is made again was pending. -/
theorem pending_of_mem_waitingFor {client : ℕ} (h : o ∈ r.waitingFor client) :
    ∃ p, r.pendingOffers.lookup o.key = some p ∧ p.previous = client ∧ p.client = o.client := by
  obtain ⟨⟨key, p⟩, he, ho⟩ := mem_filterMap.mp h
  split_ifs at ho with hprevious
  cases ho
  exact ⟨p, AList.mem_lookup_iff.mpr he, hprevious, rfl⟩

/-- The registered owner of an instance. -/
def owner (r : Registry) (key : ℕ × ℕ) : Option ℕ := (r.localServices.lookup key).map (·.client)

/-- What a client that is removed offered has no owner. -/
theorem owner_removeLocal (r : Registry) (client : ℕ) (key : ℕ × ℕ) :
    (r.removeLocal client).owner key = if r.owner key = some client then none else r.owner key := by
  have hbind : ∀ stored : Option LocalService,
      (stored.bind fun s => if s.client = client then none else some s).map (·.client) =
        if stored.map (·.client) = some client then none else stored.map (·.client) := by
    rintro (_ | stored)
    · simp
    · by_cases hclient : stored.client = client
      · simp [hclient]
      · simp [hclient]
  rw [owner, removeLocal, lookup_filterMap]
  exact hbind _

/-- Whom an offer replaces, if it is accepted, and which offer becomes pending. -/
structure OfferSpec (r : Registry) (o : Offer) (answers : OfferAnswers)
    (out : Verdict × Registry) : Prop where
  owner : ∀ key, out.2.owner key =
    if out.1 = .accepted ∧ key = o.key then some o.client else r.owner key
  replaced : out.1 = .accepted → ∀ client, r.owner o.key = some client →
    client ∉ r.endpoints ∨ r.Unsent client answers
  pending : ∀ key p, out.2.pendingOffers.lookup key = some p →
    r.pendingOffers.lookup key = some p ∨ key = o.key ∧ p.client = o.client
  reoffers : out.2.reoffers = r.reoffers

variable {answers : OfferAnswers}

/-- An offer that is not accepted leaves the owners alone. -/
theorem OfferSpec.of_rejected {verdict : Verdict}
    (hv : verdict ≠ .accepted) : r.OfferSpec o answers (verdict, r) where
  owner _ := (if_neg fun h => hv h.1).symm
  replaced h := absurd h hv
  pending _ _ h := .inl h
  reoffers := rfl

/-- To accept is right if the owner, if there is one, has no endpoint or cannot be sent a ping. -/
theorem OfferSpec.accept (pingedClients : List ℕ)
    (h : ∀ client, r.owner o.key = some client → client ∉ r.endpoints ∨ r.Unsent client answers) :
    r.OfferSpec o answers (accept { r with pingedClients } o answers.baseOffer) := by
  unfold Registry.accept
  split_ifs
  · refine ⟨fun key => ?_, fun _ => h, fun _ _ hp => .inl hp, rfl⟩
    simp only [true_and, Registry.owner]
    split_ifs with hkey
    · rw [hkey, AList.lookup_insert]
      rfl
    · rw [AList.lookup_insert_ne hkey]
  · exact {
      owner := fun _ => (if_neg fun h => nomatch h.1).symm
      replaced := fun h => nomatch h
      pending := fun _ _ hp => .inl hp
      reoffers := rfl }

/-- The offer becomes pending. -/
theorem OfferSpec.wait (pingedClients : List ℕ) (hp : p.client = o.client) :
    r.OfferSpec o answers
      (.pending, { r with pingedClients, pendingOffers := r.pendingOffers.insert o.key p }) where
  owner _ := (if_neg fun h => nomatch h.1).symm
  replaced h := nomatch h
  pending key p' hp' := by
    by_cases hkey : key = o.key
    · subst hkey
      rw [AList.lookup_insert] at hp'
      cases hp'
      exact .inr ⟨rfl, hp⟩
    · rw [AList.lookup_insert_ne hkey] at hp'
      exact .inl hp'
  reoffers := rfl

/-- The owner is pinged, if it can be. Source: `handle_local_offer_service` -/
theorem challenge_spec (host : ℕ) {stored : LocalService} (answers : OfferAnswers)
    (hstored : r.owner o.key = some stored.client) :
    r.OfferSpec o answers (r.challenge host stored o answers) := by
  have howner : ∀ client, r.owner o.key = some client → client = stored.client := by
    intro client h
    rw [hstored] at h
    exact (Option.some.inj h).symm
  unfold challenge
  split_ifs with hendpoint hhost
  · simp only [sendPing, if_pos hendpoint]
    by_cases hpinged : stored.client ∈ r.pingedClients
    · -- a second ping is not sent, and the offer waits for the answer to the first
      simp only [if_pos hpinged]
      exact OfferSpec.wait r.pingedClients rfl
    · simp only [if_neg hpinged]
      cases hsent : answers.sent
      · refine OfferSpec.accept (stored.client :: r.pingedClients) fun client h => .inr ?_
        rw [howner client h]
        exact ⟨hendpoint, hpinged, hsent⟩
      · exact OfferSpec.wait (stored.client :: r.pingedClients) rfl
  · exact .of_rejected nofun
  · refine OfferSpec.accept r.pingedClients fun client h => .inl ?_
    rw [howner client h]
    exact hendpoint

/-- **Whom an offer replaces.** -/
theorem handleLocalOfferService_spec (r : Registry) (host : ℕ) (o : Offer)
    (answers : OfferAnswers) :
    r.OfferSpec o answers (r.handleLocalOfferService host o answers) := by
  unfold handleLocalOfferService
  rcases hstored : r.localServices.lookup o.key with _ | stored
  · refine OfferSpec.accept r.pingedClients fun client h => ?_
    rw [Registry.owner, hstored] at h
    cases h
  · have howner : r.owner o.key = some stored.client := by rw [Registry.owner, hstored]; rfl
    rcases r.pendingOffers.lookup o.key with _ | p
    · simp only
      split_ifs
      · exact .of_rejected nofun
      · exact challenge_spec host answers howner
      · exact .of_rejected nofun
    · simp only
      split_ifs <;> exact .of_rejected nofun

end Registry

/-! ### Tenures -/

/-- The tables, and for each instance the client that was registered last and whether there was
reason to replace it since; and the instances with clients whose offer was rejected because the owner
answered.
Source: none: this is what the tables are to be compared with -/
structure Tenures where
  registry : Registry
  last : ℕ × ℕ → Option ℕ
  excused : ℕ × ℕ → Bool
  rejected : List ((ℕ × ℕ) × ℕ)

/-- The event is a reason to replace the owner of an instance: it stops the offer, it is removed,
reported in error, or has not answered a ping in time. -/
def OwnerEvent.Excuses (r : Registry) (key : ℕ × ℕ) (client : ℕ) : OwnerEvent → Prop
  | .stopOffer c k => c = client ∧ k = key
  | .removeLocal c => c = client
  | .clientError c => c = client
  | .pingTimeout c => c = client ∧ c ∈ r.pingedClients
  | _ => False

instance (r : Registry) (key : ℕ × ℕ) (client : ℕ) :
    (e : OwnerEvent) → Decidable (e.Excuses r key client)
  | .stopOffer _ _ | .pingTimeout _ => inferInstanceAs (Decidable (_ ∧ _))
  | .removeLocal _ | .clientError _ => inferInstanceAs (Decidable (_ = _))
  | .offer _ _ | .reoffer _ _ | .connect _ | .disconnect _ | .unping _ | .pong _ => .isFalse id

namespace Tenures

def start : Tenures := ⟨.empty, fun _ => none, fun _ => false, []⟩

/-- The offers that a pong of a client rejects, without those of clients that are about to offer the
same instance again. -/
def rejectedBy (r : Registry) (client : ℕ) : List ((ℕ × ℕ) × ℕ) :=
  ((r.waitingFor client).map fun o => (o.key, o.client)).filter fun e =>
    e ∉ r.reoffers.map fun o => (o.key, o.client)

def rejectedAfter (t : Tenures) : OwnerEvent → List ((ℕ × ℕ) × ℕ)
  | .offer o _ => t.rejected.filter (· ≠ (o.key, o.client))
  | .pong client => t.rejected ++ rejectedBy t.registry client
  | _ => t.rejected

/-- The event makes an offer of the instance that is accepted. -/
def Accepts (host : ℕ) (t : Tenures) (e : OwnerEvent) (key : ℕ × ℕ) : Prop :=
  (t.registry.step host e).1 = some .accepted ∧
    (t.registry.offerOf e).map (·.1.key) = some key

instance (host : ℕ) (t : Tenures) (e : OwnerEvent) (key : ℕ × ℕ) :
    Decidable (t.Accepts host e key) := inferInstanceAs (Decidable (_ ∧ _))

def after (host : ℕ) (t : Tenures) (e : OwnerEvent) : Tenures :=
  let registry := (t.registry.step host e).2
  { registry
    last := fun key => (registry.owner key).or (t.last key)
    excused := fun key =>
      !t.Accepts host e key &&
        (t.excused key || (t.last key).any fun client => e.Excuses t.registry key client)
    rejected := t.rejectedAfter e }

def step (host : ℕ) (t : Tenures) (e : OwnerEvent) : Except Empty (Option Verdict × Tenures) :=
  .ok ((t.registry.step host e).1, t.after host e)

/-- The owner of an instance changes only with a reason. -/
def Stable (host : ℕ) (t : Tenures) (e : OwnerEvent) : Prop :=
  ∀ key a b, t.last key = some a → (t.after host e).last key = some b → a ≠ b →
    t.excused key = true ∨ a ∉ t.registry.endpoints ∨
      ∃ o answers, t.registry.offerOf e = some (o, answers) ∧ t.registry.Unsent a answers

/-- A client whose offer was rejected becomes the owner only by offering again. -/
def Earned (host : ℕ) (t : Tenures) (e : OwnerEvent) : Prop :=
  ∀ key b, (key, b) ∈ t.rejected → t.registry.owner key ≠ some b →
    (t.after host e).registry.owner key = some b →
      ∃ o answers, e = .offer o answers ∧ o.key = key ∧ o.client = b

variable {host : ℕ} {t : Tenures} {e : OwnerEvent} {key : ℕ × ℕ}

/-- An offer that is accepted makes its client the owner. -/
theorem owner_of_accepts (h : t.Accepts host e key) :
    ∃ o answers, t.registry.offerOf e = some (o, answers) ∧ o.key = key ∧
      (t.after host e).registry.owner key = some o.client ∧ ∀ a, t.registry.owner key = some a →
        a ∉ t.registry.endpoints ∨ t.registry.Unsent a answers := by
  obtain ⟨hverdict, hkey⟩ := h
  cases e with
  | offer o answers =>
      have hspec := t.registry.handleLocalOfferService_spec host o answers
      have haccepted : (t.registry.handleLocalOfferService host o answers).1 = .accepted :=
        Option.some.inj hverdict
      obtain rfl : o.key = key := Option.some.inj hkey
      refine ⟨o, answers, rfl, rfl, ?_, hspec.replaced haccepted⟩
      exact (hspec.owner o.key).trans (if_pos ⟨haccepted, rfl⟩)
  | reoffer i answers =>
      rcases ho : t.registry.reoffers[i]? with _ | o
      · simp only [Registry.offerOf, ho] at hkey
        cases hkey
      · simp only [Registry.step, ho] at hverdict
        have hspec := Registry.handleLocalOfferService_spec
          { t.registry with reoffers := t.registry.reoffers.eraseIdx i } host o answers
        have haccepted := Option.some.inj hverdict
        obtain rfl : o.key = key := by simpa [Registry.offerOf, ho] using hkey
        refine ⟨o, answers, by simp [Registry.offerOf, ho], rfl, ?_, hspec.replaced haccepted⟩
        simp only [after, Registry.step, ho]
        exact (hspec.owner o.key).trans (if_pos ⟨haccepted, rfl⟩)
  | _ => cases hkey

/-- Any other step leaves the owner, or takes it away with a reason. -/
theorem owner_of_not_accepts (h : ¬ t.Accepts host e key) :
    (t.after host e).registry.owner key = t.registry.owner key ∨
      (t.after host e).registry.owner key = none ∧
        ∃ a, t.registry.owner key = some a ∧ e.Excuses t.registry key a := by
  cases e with
  | offer o answers =>
      have hspec := t.registry.handleLocalOfferService_spec host o answers
      refine .inl ((hspec.owner key).trans (if_neg fun hacc => h ?_))
      exact ⟨congrArg some hacc.1, congrArg some hacc.2.symm⟩
  | reoffer i answers =>
      simp only [after, Registry.step]
      rcases ho : t.registry.reoffers[i]? with _ | o
      · exact .inl rfl
      · have hspec := Registry.handleLocalOfferService_spec
          { t.registry with reoffers := t.registry.reoffers.eraseIdx i } host o answers
        refine .inl ((hspec.owner key).trans (if_neg fun hacc => h ?_))
        simp only [Accepts, Registry.step, Registry.offerOf, ho, Option.map_some]
        exact ⟨congrArg some hacc.1, congrArg some hacc.2.symm⟩
  | stopOffer client k =>
      simp only [after, Registry.step, Registry.onStopOfferService]
      rcases hstored : t.registry.localServices.lookup k with _ | stored
      · exact .inl rfl
      · simp only
        split_ifs with hclient
        · by_cases hkey : key = k
          · subst hkey
            refine .inr ⟨?_, stored.client, ?_, hclient.symm, rfl⟩
            · simp [Registry.owner]
            · simp [Registry.owner, hstored]
          · refine .inl ?_
            simp only [Registry.owner, AList.lookup_erase_ne hkey]
        · exact .inl rfl
  | removeLocal client =>
      have howner := t.registry.owner_removeLocal client key
      by_cases hclient : t.registry.owner key = some client
      · exact .inr ⟨howner.trans (if_pos hclient), client, hclient, rfl⟩
      · exact .inl (howner.trans (if_neg hclient))
  | _ => exact .inl rfl

/-! ### Runs -/

/-- What every step keeps: an instance without owner had none or it was replaced with reason, and an
offer that was rejected is neither pending nor about to be made again. -/
structure Kept (t : Tenures) : Prop where
  last : ∀ key, t.last key = t.registry.owner key ∨
    t.registry.owner key = none ∧ t.excused key = true
  rejected : ∀ key b, (key, b) ∈ t.rejected →
    (∀ p, t.registry.pendingOffers.lookup key = some p → p.client ≠ b) ∧
      ∀ o ∈ t.registry.reoffers, o.key = key → o.client ≠ b

/-- Nobody owns anything. -/
theorem Kept.start : Tenures.start.Kept where
  last _ := .inl rfl
  rejected _ _ h := absurd h not_mem_nil

/-- The last owner is the owner, or had reason to go. -/
theorem Kept.last_after (h : t.Kept) (host : ℕ) (e : OwnerEvent) (key : ℕ × ℕ) :
    (t.after host e).last key = (t.after host e).registry.owner key ∨
      (t.after host e).registry.owner key = none ∧ (t.after host e).excused key = true := by
  have hlast : (t.after host e).last key =
      ((t.after host e).registry.owner key).or (t.last key) := rfl
  have hexcused : (t.after host e).excused key = (!t.Accepts host e key &&
      (t.excused key || (t.last key).any fun client => e.Excuses t.registry key client)) := rfl
  by_cases hacc : t.Accepts host e key
  · obtain ⟨o, answers, -, -, howner, -⟩ := owner_of_accepts hacc
    rw [hlast, howner]
    exact .inl rfl
  · rcases owner_of_not_accepts hacc with hsame | ⟨hnone, a, ha, hex⟩
    · rcases h.last key with hl | ⟨hnone, hex⟩
      · rw [hlast, hsame, hl, Option.or_self]
        exact .inl rfl
      · refine .inr ⟨hsame.trans hnone, ?_⟩
        rw [hexcused, hex]
        simpa using hacc
    · refine .inr ⟨hnone, ?_⟩
      rcases h.last key with hl | ⟨hnone', -⟩
      · rw [hexcused, hl, ha]
        simpa [hex] using hacc
      · rw [hnone'] at ha
        cases ha

/-- An offer of another client or instance does not bring a rejected one back. -/
theorem Kept.pending_ne (h : t.Kept) {r : Registry} {b : ℕ} (hrej : (key, b) ∈ t.rejected)
    (hne : o.key = key → o.client ≠ b) (hpending : ∀ key p, r.pendingOffers.lookup key = some p →
      t.registry.pendingOffers.lookup key = some p ∨ key = o.key ∧ p.client = o.client)
    (hp : r.pendingOffers.lookup key = some p) : p.client ≠ b := by
  rcases hpending key p hp with hp | ⟨hkey, hclient⟩
  · exact (h.rejected key b hrej).1 p hp
  · rw [hclient]
    exact hne hkey.symm

/-- Who was rejected has no offer pending, and none about to be made again. -/
theorem Kept.rejected_after (h : t.Kept) (host : ℕ) (e : OwnerEvent) {b : ℕ}
    (hrej : (key, b) ∈ (t.after host e).rejected) :
    (∀ p, (t.after host e).registry.pendingOffers.lookup key = some p → p.client ≠ b) ∧
      ∀ o ∈ (t.after host e).registry.reoffers, o.key = key → o.client ≠ b := by
  cases e with
  | offer o answers =>
      have hspec := t.registry.handleLocalOfferService_spec host o answers
      obtain ⟨hmem, hne⟩ := mem_filter.mp hrej
      have hother : o.key = key → o.client ≠ b := by
        rintro rfl rfl
        simp at hne
      refine ⟨fun p hp => h.pending_ne hmem hother hspec.pending hp, fun o' ho' => ?_⟩
      exact (h.rejected key b hmem).2 o' (hspec.reoffers ▸ ho')
  | reoffer i answers =>
      obtain ⟨hpending, hreoffers⟩ := h.rejected key b hrej
      simp only [after, Registry.step]
      rcases ho : t.registry.reoffers[i]? with _ | o
      · exact ⟨hpending, hreoffers⟩
      · have hspec := Registry.handleLocalOfferService_spec
          { t.registry with reoffers := t.registry.reoffers.eraseIdx i } host o answers
        have hother := hreoffers o (mem_of_getElem? ho)
        refine ⟨fun p hp => h.pending_ne hrej hother hspec.pending hp, fun o' ho' => ?_⟩
        rw [hspec.reoffers] at ho'
        exact hreoffers o' (mem_of_mem_eraseIdx ho')
  | stopOffer client k =>
      have hsame : (t.registry.onStopOfferService client k).pendingOffers =
          t.registry.pendingOffers ∧
            (t.registry.onStopOfferService client k).reoffers = t.registry.reoffers := by
        unfold Registry.onStopOfferService
        split
        · split_ifs <;> exact ⟨rfl, rfl⟩
        · exact ⟨rfl, rfl⟩
      simp only [after, Registry.step, hsame.1, hsame.2]
      exact h.rejected key b hrej
  | pong client =>
      rcases mem_append.mp hrej with hrej | hrej
      · obtain ⟨hpending, hreoffers⟩ := h.rejected key b hrej
        exact ⟨fun p hp => hpending p (Registry.pending_of_notWaitingFor hp).1, hreoffers⟩
      · -- the pending offer has just been taken out
        obtain ⟨hwaiting, hreoffers⟩ := mem_filter.mp hrej
        obtain ⟨o, ho, heq⟩ := mem_map.mp hwaiting
        obtain ⟨rfl, rfl⟩ := Prod.mk.inj heq
        obtain ⟨p, hp, hprevious, -⟩ := Registry.pending_of_mem_waitingFor ho
        refine ⟨fun p' hp' => ?_, fun o' ho' hkey hclient => ?_⟩
        · obtain ⟨hp', hne⟩ := Registry.pending_of_notWaitingFor hp'
          rw [hp] at hp'
          cases hp'
          exact absurd hprevious hne
        · refine of_decide_eq_true hreoffers (mem_map.mpr ⟨o', ho', ?_⟩)
          rw [hkey, hclient]
  | clientError client =>
      obtain ⟨hpending, hreoffers⟩ := h.rejected key b hrej
      refine ⟨fun p hp => hpending p (Registry.pending_of_notWaitingFor hp).1, fun o ho hkey => ?_⟩
      rcases mem_append.mp ho with ho | ho
      · exact hreoffers o ho hkey
      · obtain ⟨p, hp, -, hclient⟩ := Registry.pending_of_mem_waitingFor ho
        rw [← hclient]
        exact hpending p (hkey ▸ hp)
  | _ => exact h.rejected key b hrej

/-- **One step.** -/
theorem Kept.after (h : t.Kept) (host : ℕ) (e : OwnerEvent) : (t.after host e).Kept where
  last := h.last_after host e
  rejected _ _ hrej := h.rejected_after host e hrej

/-- An owner is only replaced for a reason. -/
theorem Kept.stable (h : t.Kept) (host : ℕ) (e : OwnerEvent) : t.Stable host e := by
  intro key a b ha hb hne
  have hlast : (t.after host e).last key =
      ((t.after host e).registry.owner key).or (t.last key) := rfl
  rcases h.last key with hl | ⟨-, hex⟩
  · have howner : t.registry.owner key = some a := hl.symm.trans ha
    by_cases hacc : t.Accepts host e key
    · obtain ⟨o, answers, ho, -, -, hreplaced⟩ := owner_of_accepts hacc
      rcases hreplaced a howner with hend | hunsent
      · exact .inr (.inl hend)
      · exact .inr (.inr ⟨o, answers, ho, hunsent⟩)
    · -- otherwise the client registered last stays the same
      exfalso
      apply hne
      rw [hlast, ha] at hb
      rcases owner_of_not_accepts hacc with hsame | ⟨hnone, -⟩
      · rw [hsame, howner] at hb
        exact Option.some.inj hb
      · rw [hnone] at hb
        exact Option.some.inj hb
  · exact .inl hex

/-- Who was rejected has to offer again. -/
theorem Kept.earned (h : t.Kept) (host : ℕ) (e : OwnerEvent) : t.Earned host e := by
  intro key b hrej hbefore hafter
  by_cases hacc : t.Accepts host e key
  · obtain ⟨o, answers, ho, hkey, howner, -⟩ := owner_of_accepts hacc
    have hclient : o.client = b := Option.some.inj (howner.symm.trans hafter)
    cases e with
    | offer o' answers' =>
        cases ho
        exact ⟨o, answers, rfl, hkey, hclient⟩
    | reoffer i answers' =>
        obtain ⟨o', ho', heq⟩ := Option.map_eq_some_iff.mp ho
        cases heq
        exact absurd hclient ((h.rejected key b hrej).2 o (mem_of_getElem? ho') hkey)
    | _ => cases ho
  · rcases owner_of_not_accepts hacc with hsame | ⟨hnone, -⟩
    · exact absurd (hsame.symm.trans hafter) hbefore
    · rw [hnone] at hafter
      cases hafter

end Tenures

/-- **Service ownership is stable.** In every run, the client registered for an instance is followed
by another one only if it has stopped the offer, has been removed, has been reported in error or has
failed to answer a ping since it was registered, or if it has no endpoint or a ping to it cannot be
sent; and a client whose offer was rejected because the owner answered, and that was not about to
offer the instance again, becomes the owner only by offering again. -/
theorem ownership_stable (host : ℕ) (events : List OwnerEvent) :
    AllSteps (Tenures.step host) (fun t e => t.Stable host e ∧ t.Earned host e) Tenures.start
      events := by
  refine AllSteps.of_forall Tenures.Kept (fun t e o t' h hstep => ?_)
    (fun t e h => ⟨h.stable host e, h.earned host e⟩) .start
  cases hstep
  exact h.after host e

/-- The owner of an instance behind a run. -/
def ownerAfter (events : List OwnerEvent) (key : ℕ × ℕ) : Option ℕ :=
  match run (Tenures.step 0) Tenures.start events with
  | .ok (_, t) => t.registry.owner key
  | .error e => nomatch e

/-- The client 2 takes the service over from the client 1, which has an endpoint and has neither
stopped nor failed to do anything, because a ping cannot be sent. And the client 2, whose second offer
is rejected because the client 1 answers, becomes the owner by its first offer, which was about to be
made again. -/
theorem owner_replaced_unpinged :
    let offer (client : ℕ) : Offer := ⟨(0x1111, 1), 1, 0, client⟩
    ownerAfter [.connect 1, .offer (offer 1) ⟨true, true⟩, .offer (offer 2) ⟨true, false⟩]
        (0x1111, 1) = some 2 ∧
      ownerAfter [.connect 1, .offer (offer 1) ⟨true, true⟩, .offer (offer 2) ⟨true, true⟩,
          .clientError 1, .offer (offer 2) ⟨true, true⟩, .unping 1, .pong 1, .removeLocal 1,
          .reoffer 0 ⟨true, true⟩] (0x1111, 1) = some 2 := by
  decide +kernel

end SomeipTunnel.Routing
