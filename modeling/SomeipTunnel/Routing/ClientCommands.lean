import SomeipTunnel.Lib.Loop
import SomeipTunnel.Lib.Run
import SomeipTunnel.Lib.Table

/-!
# Requests and offers of an application

The routing manager of an application keeps what the application requests and offers, to tell it to
the routing host whenever it registers there, and while it is registered it tells it each change. A
request can be debounced: it is collected until a timer expires, and a request that is released before
is never sent.

The `Wishes` put beside this what the application wants and the commands sent since the last
registration; replaying these commands is what the routing host does. `Wishes.Agree` says that the two
agree where they should.

* `Wishes.Asked`, `Wishes.Given`: what the tables say about both sides, in every state.
* `wishes_agree`: the two sides agree in every run in which no request is released that has been sent
  and is collected again. Such a release is taken for one of a request that was never sent, and the
  routing host is not told (`release_swallowed`).

Source: vsomeip/implementation/routing/src/routing_manager_client.cpp
-/

namespace SomeipTunnel.Routing

open StepRun Table List AList

/-! ### The code -/

/-- Services with their instances, and the major and minor version of each. `protocol::service` is
ordered by service and instance alone, so that a `std::set` holds one element for each pair, the one
that was inserted first. Source: `std::set<protocol::service>`. -/
abbrev Services := AList fun _ : ℕ × ℕ => ℕ × ℕ

/-- The commands to the routing host. -/
inductive ClientCommand
  | requestServices (services : Services)
  | releaseService (key : ℕ × ℕ)
  | offerService (key version : ℕ × ℕ)
  | stopOfferService (key version : ℕ × ℕ)

structure RoutingClient where
  /-- Source: `state_ == inner_state_type_e::ST_REGISTERED`. -/
  registered : Bool
  requests : Services
  requestsToDebounce : Services
  requestDebounceTimerRunning : Bool
  pendingOffers : Services

namespace RoutingClient

variable (c : RoutingClient)

def new : RoutingClient := ⟨false, ∅, ∅, false, ∅⟩

/-- A command, if the client is registered. -/
def toHost (command : ClientCommand) : List ClientCommand :=
  if c.registered then [command] else []

/-- Source: `routing_manager_client::send_request_services`. -/
def sendRequestServices (services : Services) : List ClientCommand :=
  if services.entries.isEmpty then [] else [.requestServices services]

/-- Source: `routing_manager_client::offer_service`. -/
def offerService (key version : ℕ × ℕ) : List ClientCommand × RoutingClient :=
  (c.toHost (.offerService key version),
    { c with pendingOffers := insertNew c.pendingOffers key version })

/-- Source: `routing_manager_client::stop_offer_service`. -/
def stopOfferService (key version : ℕ × ℕ) : List ClientCommand × RoutingClient :=
  (c.toHost (.stopOfferService key version),
    { c with pendingOffers := c.pendingOffers.erase key })

/-- Source: `routing_manager_client::request_service`. -/
def requestService (requestDebouncingTime : ℕ) (key version : ℕ × ℕ) :
    List ClientCommand × RoutingClient :=
  if requestDebouncingTime = 0 then
    (c.toHost (.requestServices (AList.singleton key version)),
      { c with requests := insertNew c.requests key version })
  else
    ([], { c with
      requestsToDebounce := insertNew c.requestsToDebounce key version
      requestDebounceTimerRunning := true })

/-- Source: `routing_manager_client::release_service`. -/
def releaseService (key : ℕ × ℕ) : List ClientCommand × RoutingClient :=
  let pending := key ∈ c.requestsToDebounce
  (if pending then [] else c.toHost (.releaseService key),
    { c with
      requestsToDebounce := c.requestsToDebounce.erase key
      requests := c.requests.erase key })

/-- Source: `routing_manager_client::request_debounce_timeout_cbk`, without error. -/
def requestDebounceTimeoutCbk : List ClientCommand × RoutingClient :=
  if c.requestsToDebounce.entries.isEmpty then
    ([], { c with requestDebounceTimerRunning := false })
  else if c.registered then
    (sendRequestServices c.requestsToDebounce,
      { c with
        requests := insertAll c.requests c.requestsToDebounce
        requestsToDebounce := ∅
        requestDebounceTimerRunning := false })
  else ([], c)

/-- Source: `routing_manager_client::send_pending_commands`. -/
def sendPendingCommands : List ClientCommand :=
  c.pendingOffers.entries.map (fun e => .offerService e.1 e.2) ++ sendRequestServices c.requests

end RoutingClient

/-- What happens to the client. -/
inductive ClientEvent
  | request (key version : ℕ × ℕ)
  | release (key : ℕ × ℕ)
  | offer (key version : ℕ × ℕ)
  | stopOffer (key version : ℕ × ℕ)
  /-- The debounce timer expires. -/
  | timeout
  /-- The routing host confirms the registration (`on_routing_info`). -/
  | register
  /-- The connection is lost, or the client deregisters. -/
  | lose

/-- One step, with the commands sent. -/
def RoutingClient.step (requestDebouncingTime : ℕ) (c : RoutingClient) :
    ClientEvent → List ClientCommand × RoutingClient
  | .request key version => c.requestService requestDebouncingTime key version
  | .release key => c.releaseService key
  | .offer key version => c.offerService key version
  | .stopOffer key version => c.stopOfferService key version
  | .timeout => if c.requestDebounceTimerRunning then c.requestDebounceTimeoutCbk else ([], c)
  | .register =>
      if c.registered then ([], c) else (c.sendPendingCommands, { c with registered := true })
  | .lose => ([], { c with registered := false })

/-! ### Both sides -/

namespace ClientCommand

/-- What the routing host takes as requested after a command. -/
def requested (s : Finset (ℕ × ℕ)) : ClientCommand → Finset (ℕ × ℕ)
  | .requestServices services => s ∪ services.keys.toFinset
  | .releaseService key => s.erase key
  | .offerService _ _ | .stopOfferService _ _ => s

/-- What the routing host takes as offered after a command. -/
def offered (s : Finset (ℕ × ℕ)) : ClientCommand → Finset (ℕ × ℕ)
  | .offerService key _ => insert key s
  | .stopOfferService key _ => s.erase key
  | .requestServices _ | .releaseService _ => s

end ClientCommand

/-- The client, the commands sent since the last registration, and the services that the application
has requested and not released and offered and not stopped to offer. -/
structure Wishes where
  client : RoutingClient
  sent : List ClientCommand
  wanted : Finset (ℕ × ℕ)
  provided : Finset (ℕ × ℕ)

namespace Wishes

def start : Wishes := ⟨.new, [], ∅, ∅⟩

/-- The requests that the commands sent leave at the routing host. -/
def requested (w : Wishes) : Finset (ℕ × ℕ) := w.sent.foldl ClientCommand.requested ∅

/-- The offers that the commands sent leave at the routing host. -/
def offered (w : Wishes) : Finset (ℕ × ℕ) := w.sent.foldl ClientCommand.offered ∅

def wantedAfter (w : Wishes) : ClientEvent → Finset (ℕ × ℕ)
  | .request key _ => insert key w.wanted
  | .release key => w.wanted.erase key
  | _ => w.wanted

def providedAfter (w : Wishes) : ClientEvent → Finset (ℕ × ℕ)
  | .offer key _ => insert key w.provided
  | .stopOffer key _ => w.provided.erase key
  | _ => w.provided

/-- The log of commands begins anew with a registration. -/
def sentBefore (w : Wishes) : ClientEvent → List ClientCommand
  | .register => if w.client.registered then w.sent else []
  | _ => w.sent

def after (requestDebouncingTime : ℕ) (w : Wishes) (e : ClientEvent) : Wishes :=
  let out := w.client.step requestDebouncingTime e
  ⟨out.2, w.sentBefore e ++ out.1, w.wantedAfter e, w.providedAfter e⟩

def step (requestDebouncingTime : ℕ) (w : Wishes) (e : ClientEvent) :
    Except Empty (Unit × Wishes) := .ok ((), w.after requestDebouncingTime e)

/-- While the client is registered and no debounce timer is pending, both sides agree. -/
def Agree (w : Wishes) : Prop :=
  w.client.registered = true → w.client.requestDebounceTimerRunning = false →
    w.requested = w.wanted ∧ w.offered = w.provided

instance (w : Wishes) : Decidable w.Agree := inferInstanceAs (Decidable (_ → _ → _ ∧ _))

/-- The step does not release a request that has been sent and is collected again. -/
def Plain (w : Wishes) : ClientEvent → Prop
  | .release key => w.client.registered = true → key ∈ w.client.requestsToDebounce →
      key ∉ w.client.requests
  | _ => True

instance (w : Wishes) : (e : ClientEvent) → Decidable (w.Plain e)
  | .release _ => inferInstanceAs (Decidable (_ → _ → _))
  | .request _ _ | .offer _ _ | .stopOffer _ _ | .timeout | .register | .lose => .isTrue trivial

/-! ### Replaying the commands -/

section replay

open RoutingClient

variable {services : Services} {s : Finset (ℕ × ℕ)} {key : ℕ × ℕ}

/-- The host has the requests of the command. -/
theorem mem_foldl_sendRequestServices :
    key ∈ (sendRequestServices services).foldl ClientCommand.requested s ↔
      key ∈ s ∨ key ∈ services := by
  unfold sendRequestServices
  split_ifs with h
  · have hnone : key ∉ services := by
      rw [AList.mem_keys, AList.keys, isEmpty_iff.mp h]
      exact not_mem_nil
    exact (or_iff_left hnone).symm
  · rw [foldl_cons, foldl_nil, ClientCommand.requested, Finset.mem_union,
      mem_toFinset, AList.mem_keys]

/-- Requests are no offers. -/
theorem foldl_offered_sendRequestServices :
    (sendRequestServices services).foldl ClientCommand.offered s = s := by
  unfold sendRequestServices
  split_ifs <;> rfl

/-- Offers leave the requests alone. -/
theorem foldl_requested_offers (es : List (Σ _ : ℕ × ℕ, ℕ × ℕ)) :
    (es.map fun e => ClientCommand.offerService e.1 e.2).foldl ClientCommand.requested s = s := by
  induction es with
  | nil => rfl
  | cons e es ih => exact ih

theorem mem_foldl_offered_offers {es : List (Σ _ : ℕ × ℕ, ℕ × ℕ)} :
    key ∈ (es.map fun e => ClientCommand.offerService e.1 e.2).foldl ClientCommand.offered s ↔
      key ∈ s ∨ key ∈ es.keys := by
  have hstep : ∀ s, ∀ e ∈ es, key ∈ ClientCommand.offered s (.offerService e.1 e.2) ↔
      key ∈ s ∨ e.1 = key := by
    intro s e _
    rw [ClientCommand.offered, Finset.mem_insert, or_comm, eq_comm]
  rw [foldl_map, Loop.foldl_collects (P := (key ∈ ·)) hstep, List.keys, mem_map]

variable {c : RoutingClient}

/-- Behind a registration the routing host has the requests of the client. -/
theorem mem_requested_sendPendingCommands :
    key ∈ c.sendPendingCommands.foldl ClientCommand.requested ∅ ↔ key ∈ c.requests := by
  rw [sendPendingCommands, foldl_append, foldl_requested_offers,
    mem_foldl_sendRequestServices]
  exact or_iff_right (Finset.notMem_empty key)

/-- Behind a registration the routing host has the offers of the client. -/
theorem mem_offered_sendPendingCommands :
    key ∈ c.sendPendingCommands.foldl ClientCommand.offered ∅ ↔ key ∈ c.pendingOffers := by
  rw [sendPendingCommands, foldl_append, foldl_offered_sendRequestServices,
    mem_foldl_offered_offers, AList.mem_keys, AList.keys]
  exact or_iff_right (Finset.notMem_empty key)

/-- A registered client sends its commands. -/
theorem foldl_toHost {f : Finset (ℕ × ℕ) → ClientCommand → Finset (ℕ × ℕ)}
    (hreg : c.registered = true) (command : ClientCommand) :
    (c.toHost command).foldl f s = f s command := by
  rw [toHost, if_pos hreg, foldl_cons, foldl_nil]

end replay

variable {w : Wishes} {e : ClientEvent} {d : ℕ}

/-- A registered client adds to the commands sent. -/
theorem sent_after (hreg : w.client.registered = true) :
    (w.after d e).sent = w.sent ++ (w.client.step d e).1 := by
  have hsent : w.sentBefore e = w.sent := by
    cases e <;> simp [sentBefore, hreg]
  rw [after, hsent]

/-! ### What the tables say -/

/-- The application wants what is in one of the two sets of requests, the second one is empty without
a timer, and a registered client has sent the first one. -/
structure Asked (w : Wishes) : Prop where
  wanted : ∀ key, key ∈ w.wanted ↔ key ∈ w.client.requests ∨ key ∈ w.client.requestsToDebounce
  timer : w.client.requestDebounceTimerRunning = false → w.client.requestsToDebounce = ∅
  requested : w.client.registered = true → ∀ key, key ∈ w.requested ↔ key ∈ w.client.requests

/-- The application provides what is in the set of offers, and a registered client has sent it. -/
structure Given (w : Wishes) : Prop where
  provided : ∀ key, key ∈ w.provided ↔ key ∈ w.client.pendingOffers
  offered : w.client.registered = true → ∀ key, key ∈ w.offered ↔ key ∈ w.client.pendingOffers

/-- Nothing is requested. -/
theorem Asked.start : Wishes.start.Asked where
  wanted _ := by simp [Wishes.start, RoutingClient.new]
  timer _ := rfl
  requested h := nomatch h

/-- Nothing is offered. -/
theorem Given.start : Wishes.start.Given where
  provided _ := by simp [Wishes.start, RoutingClient.new]
  offered h := nomatch h

/-- Without a pending timer the two sides agree. -/
theorem agree (h : w.Asked) (h' : w.Given) : w.Agree := by
  intro hreg htimer
  have hnone : ∀ key, key ∉ w.client.requestsToDebounce := by
    rw [h.timer htimer]
    exact notMem_empty
  constructor
  · ext key
    rw [h.requested hreg, h.wanted, or_iff_left (hnone key)]
  · ext key
    rw [h'.offered hreg, h'.provided]

/-- What the debounce timer can do: nothing, stop, or send what was collected. -/
theorem step_timeout_cases (c : RoutingClient) (d : ℕ) :
    c.step d .timeout = ([], c) ∨
      c.requestsToDebounce = ∅ ∧
        c.step d .timeout = ([], { c with requestDebounceTimerRunning := false }) ∨
      c.registered = true ∧
        c.step d .timeout = (RoutingClient.sendRequestServices c.requestsToDebounce,
          { c with
            requests := insertAll c.requests c.requestsToDebounce
            requestsToDebounce := ∅
            requestDebounceTimerRunning := false }) := by
  simp only [RoutingClient.step, RoutingClient.requestDebounceTimeoutCbk]
  split_ifs with htimer hempty hreg
  · exact .inr (.inl ⟨AList.ext (isEmpty_iff.mp hempty), rfl⟩)
  · exact .inr (.inr ⟨hreg, rfl⟩)
  · exact .inl rfl
  · exact .inl rfl

/-- A registration: the log of commands begins anew, with all that is kept. -/
theorem after_register (hreg : ¬ w.client.registered = true) : w.after d .register =
    ⟨{ w.client with registered := true }, w.client.sendPendingCommands, w.wanted, w.provided⟩ := by
  simp [after, sentBefore, wantedAfter, providedAfter, RoutingClient.step, hreg]

section step

variable {commands : List ClientCommand} {c : RoutingClient}
  (hs : w.client.step d e = (commands, c)) (hregistered : c.registered = w.client.registered)
include hs hregistered

/-- What is to be shown of the offers for a step of a connected client. -/
theorem given_after (hprovided : ∀ k, k ∈ w.providedAfter e ↔ k ∈ c.pendingOffers)
    (hoffered : w.client.registered = true →
      ∀ k, k ∈ commands.foldl ClientCommand.offered w.offered ↔ k ∈ c.pendingOffers) :
    (w.after d e).Given := by
  refine ⟨fun k => ?_, fun hreg k => ?_⟩
  · simp only [after, hs, hprovided]
  · rw [after, hs, hregistered] at hreg
    rw [offered, sent_after hreg, foldl_append, hs, ← offered, hoffered hreg, after, hs]

/-- What is to be shown of the requests for a step of a connected client. -/
theorem asked_after (hwanted : ∀ k, k ∈ w.wantedAfter e ↔ k ∈ c.requests ∨ k ∈ c.requestsToDebounce)
    (htimer : c.requestDebounceTimerRunning = false → c.requestsToDebounce = ∅)
    (hrequested : w.client.registered = true →
      ∀ k, k ∈ commands.foldl ClientCommand.requested w.requested ↔ k ∈ c.requests) :
    (w.after d e).Asked := by
  refine ⟨fun k => ?_, fun ht => ?_, fun hreg k => ?_⟩
  · simp only [after, hs, hwanted]
  · rw [after, hs] at ht ⊢
    exact htimer ht
  · rw [after, hs, hregistered] at hreg
    rw [requested, sent_after hreg, foldl_append, hs, ← requested, hrequested hreg, after, hs]

end step

/-- **Offers, one step.** -/
theorem Given.after (h : w.Given) (d : ℕ) (e : ClientEvent) : (w.after d e).Given := by
  cases e with
  | offer key version =>
      refine given_after rfl rfl (fun k => ?_) fun hreg k => ?_
      · rw [providedAfter, Finset.mem_insert, mem_insertNew, h.provided]
      · rw [foldl_toHost hreg, ClientCommand.offered, Finset.mem_insert, mem_insertNew,
          h.offered hreg]
  | stopOffer key version =>
      refine given_after rfl rfl (fun k => ?_) fun hreg k => ?_
      · rw [providedAfter, Finset.mem_erase, mem_erase, h.provided]
      · rw [foldl_toHost hreg, ClientCommand.offered, Finset.mem_erase, mem_erase,
          h.offered hreg]
  | request key version =>
      by_cases hd : d = 0
      · refine given_after (if_pos hd) rfl h.provided fun hreg k => ?_
        rw [foldl_toHost hreg]
        exact h.offered hreg k
      · exact given_after (if_neg hd) rfl h.provided h.offered
  | release key =>
      refine given_after rfl rfl h.provided fun hreg k => ?_
      split_ifs
      · exact h.offered hreg k
      · rw [foldl_toHost hreg]
        exact h.offered hreg k
  | timeout =>
      rcases step_timeout_cases w.client d with hs | ⟨-, hs⟩ | ⟨-, hs⟩
      · exact given_after hs rfl h.provided h.offered
      · exact given_after hs rfl h.provided h.offered
      · refine given_after hs rfl h.provided fun hreg k => ?_
        rw [foldl_offered_sendRequestServices]
        exact h.offered hreg k
  | register =>
      by_cases hreg : w.client.registered = true
      · exact given_after (if_pos hreg) rfl h.provided h.offered
      · rw [after_register hreg]
        exact ⟨h.provided, fun _ k => mem_offered_sendPendingCommands⟩
  | lose => exact ⟨h.provided, fun hreg => nomatch hreg⟩

/-- **Requests, one step.** -/
theorem Asked.after (h : w.Asked) (d : ℕ) {e : ClientEvent} (hc : w.Plain e) :
    (w.after d e).Asked := by
  cases e with
  | offer key version | stopOffer key version =>
      refine asked_after rfl rfl h.wanted h.timer fun hreg k => ?_
      rw [foldl_toHost hreg]
      exact h.requested hreg k
  | request key version =>
      by_cases hd : d = 0
      · refine asked_after (if_pos hd) rfl (fun k => ?_) h.timer fun hreg k => ?_
        · rw [wantedAfter, Finset.mem_insert, mem_insertNew, h.wanted, or_assoc]
        · rw [foldl_toHost hreg, mem_insertNew]
          simp [ClientCommand.requested, h.requested hreg, AList.singleton, AList.keys]
      · refine asked_after (if_neg hd) rfl (fun k => ?_) (fun ht => nomatch ht) h.requested
        rw [wantedAfter, Finset.mem_insert, mem_insertNew, h.wanted]
        tauto
  | release key =>
      refine asked_after rfl rfl (fun k => ?_) (fun ht => ?_) fun hreg k => ?_
      · rw [wantedAfter, Finset.mem_erase, mem_erase, mem_erase, h.wanted]
        tauto
      · rw [h.timer ht]
        rfl
      · rw [mem_erase]
        split_ifs with hpending
        · -- the request is only collected, so that it is not one that was sent
          have hnone := hc hreg hpending
          rw [foldl_nil, h.requested hreg]
          refine ⟨fun hk => ⟨?_, hk⟩, And.right⟩
          rintro rfl
          exact hnone hk
        · rw [foldl_toHost hreg, ClientCommand.requested, Finset.mem_erase, h.requested hreg]
  | timeout =>
      rcases step_timeout_cases w.client d with hs | ⟨hempty, hs⟩ | ⟨hreg, hs⟩
      · exact asked_after hs rfl h.wanted h.timer h.requested
      · exact asked_after hs rfl h.wanted (fun _ => hempty) h.requested
      · refine asked_after hs rfl (fun k => ?_) (fun _ => rfl) fun _ k => ?_
        · rw [mem_insertAll, or_iff_left (notMem_empty k)]
          exact h.wanted k
        · rw [mem_foldl_sendRequestServices, mem_insertAll, h.requested hreg]
  | register =>
      by_cases hreg : w.client.registered = true
      · exact asked_after (if_pos hreg) rfl h.wanted h.timer h.requested
      · rw [after_register hreg]
        exact ⟨h.wanted, h.timer, fun _ k => mem_requested_sendPendingCommands⟩
  | lose => exact ⟨h.wanted, h.timer, fun hreg => nomatch hreg⟩

end Wishes

end SomeipTunnel.Routing
