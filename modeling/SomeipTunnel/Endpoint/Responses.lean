import SomeipTunnel.Endpoint.Utility
import SomeipTunnel.Lib.Run
import SomeipTunnel.Lib.Table

/-!
# Where a server endpoint sends its responses

A server endpoint remembers for each request it receives which remote sent it, under the service,
method and client packed into one key and the session below it, and `send` looks the remote of a
response up and forgets it.

The `Ledger` says what this table is for: which request with given identifiers waits for its
response. A request of the client `MAGIC_COOKIE_CLIENT` never waits, and a response of the service
discovery whose client is known and whose session is not makes the endpoint forget every request.
With these two provisos each response goes to the remote that waits for it and to nobody else
(`responses_reach_requester`).

* `Ids.key_eq_iff`: the packed key loses nothing.
* `Waiting.Held.findTarget`: where a response goes and what it leaves.
* `Ledger.Faithful.step`: the table stays that of the requests that wait.

Source: vsomeip/implementation/endpoints/src/server_endpoint_impl.cpp,
vsomeip/implementation/endpoints/src/udp_server_endpoint_impl.cpp,
vsomeip/implementation/endpoints/src/tcp_server_endpoint_impl.cpp
-/

namespace SomeipTunnel.Endpoint

open StepRun Table Function
open Tp (byteAt readUint16Be)

/-! ### The code -/

/-- The identifiers by which a response is matched with its request. -/
structure Ids where
  service : BitVec 16
  method : BitVec 16
  client : BitVec 16
  session : BitVec 16
deriving DecidableEq

/-- The identifiers in the header of a message. -/
def Ids.read (data : List UInt8) : Ids where
  service := .ofNat 16 (readUint16Be data 0)
  method := .ofNat 16 (readUint16Be data 2)
  client := .ofNat 16 (readUint16Be data 8)
  session := .ofNat 16 (readUint16Be data 10)

/-- Source: `server_endpoint_impl::to_clients_key`. -/
def toClientsKey (service method client : BitVec 16) : BitVec 64 :=
  service.setWidth 64 <<< 48 ||| method.setWidth 64 <<< 32 ||| client.setWidth 64 <<< 16

def Ids.key (ids : Ids) : BitVec 64 := toClientsKey ids.service ids.method ids.client

/-- `MAGIC_COOKIE_CLIENT`. -/
def magicCookieClient : BitVec 16 := 0xDEAD

/-- The message is one of the service discovery: `VSOMEIP_SD_SERVICE` and `VSOMEIP_SD_METHOD`. -/
def Ids.IsSd (ids : Ids) : Prop := ids.service = 0xFFFF ∧ ids.method = 0x8100

instance (ids : Ids) : Decidable ids.IsSd := inferInstanceAs (Decidable (_ ∧ _))

variable {R : Type*}

/-- The remotes that sent requests. Source: `server_endpoint_impl::clients_`. -/
abbrev Clients (R : Type*) := AList fun _ : BitVec 64 => AList fun _ : BitVec 16 => R

namespace Clients

/-- A message has been received, over UDP as one datagram part or reassembled, or over TCP.
Source: `udp_server_endpoint_impl::on_message_received_unlocked`,
`tcp_server_endpoint_impl::connection::receive_cbk` -/
def received (clients : Clients R) (data : List UInt8) (remote : R) : Clients R :=
  if isRequest (byteAt data 14) then
    let ids := Ids.read data
    if ids.client ≠ magicCookieClient then
      clients.insert ids.key ((inner clients ids.key).insert ids.session remote)
    else clients
  else clients

/-- The remote to which `send` hands a message, if any, where `defaultTarget` is
`get_default_target`. -/
def findTarget (defaultTarget : BitVec 16 → Option R) (clients : Clients R) (ids : Ids) :
    Option R × Clients R :=
  match clients.lookup ids.key with
  | some sessions =>
      match sessions.lookup ids.session with
      | some target => (some target, clients.insert ids.key (sessions.erase ids.session))
      | none => if ids.IsSd then (defaultTarget ids.service, ∅) else (none, clients)
  | none => (defaultTarget ids.service, clients)

/-- A message can be sent: it is longer than `VSOMEIP_SESSION_POS_MAX` and `sending_blocked_` is not
set. -/
def Sendable (data : List UInt8) (sendingBlocked : Bool) : Prop :=
  11 < data.length ∧ sendingBlocked = false

instance (data : List UInt8) (sendingBlocked : Bool) : Decidable (Sendable data sendingBlocked) :=
  inferInstanceAs (Decidable (_ ∧ _))

/-- Source: `server_endpoint_impl::send`, up to `send_intern`. -/
def send (defaultTarget : BitVec 16 → Option R) (clients : Clients R) (data : List UInt8)
    (sendingBlocked : Bool) : Option R × Clients R :=
  if Sendable data sendingBlocked then findTarget defaultTarget clients (Ids.read data)
  else (none, clients)

end Clients

/-- What happens to the endpoint. -/
inductive Traffic (R : Type*)
  | received (data : List UInt8) (remote : R)
  | send (data : List UInt8) (sendingBlocked : Bool)

/-! ### The packed key -/

theorem extractLsb_toClientsKey (service method client : BitVec 16) :
    (toClientsKey service method client).extractLsb' 48 16 = service ∧
      (toClientsKey service method client).extractLsb' 32 16 = method ∧
      (toClientsKey service method client).extractLsb' 16 16 = client := by
  unfold toClientsKey
  refine ⟨?_, ?_, ?_⟩
  all_goals
    ext i hi
    simp only [BitVec.getElem_extractLsb', BitVec.getLsbD_or, BitVec.getLsbD_shiftLeft,
      BitVec.getLsbD_setWidth]
    grind

/-- The service, method and client of a message. -/
def Ids.caller (ids : Ids) : BitVec 16 × BitVec 16 × BitVec 16 :=
  (ids.service, ids.method, ids.client)

/-- Two messages have the same key iff they agree in service, method and client. -/
theorem Ids.key_eq_iff {ids ids' : Ids} : ids.key = ids'.key ↔ ids.caller = ids'.caller := by
  constructor
  · intro h
    obtain ⟨hs, hm, hc⟩ := extractLsb_toClientsKey ids.service ids.method ids.client
    obtain ⟨hs', hm', hc'⟩ := extractLsb_toClientsKey ids'.service ids'.method ids'.client
    unfold Ids.key at h
    rw [h] at hs hm hc
    unfold Ids.caller
    rw [← hs, ← hm, ← hc, hs', hm', hc']
  · intro h
    obtain ⟨hs, hm, hc⟩ : ids.service = ids'.service ∧ ids.method = ids'.method ∧
        ids.client = ids'.client := by simpa [Ids.caller] using h
    rw [Ids.key, hs, hm, hc, Ids.key]

theorem Ids.eq_iff {ids ids' : Ids} :
    ids = ids' ↔ ids.key = ids'.key ∧ ids.session = ids'.session := by
  rw [Ids.key_eq_iff]
  cases ids
  cases ids'
  simp [Ids.caller, and_assoc]

/-! ### The requests that wait for a response -/

/-- For each four identifiers the remote whose request with them waits for its response, and the
services, methods and clients that are known.
Source: none: the waiting requests are what `clients_` is meant to hold -/
structure Waiting (R : Type*) where
  remote : Ids → Option R
  known : BitVec 16 × BitVec 16 × BitVec 16 → Bool

namespace Waiting

def nobody : Waiting R := ⟨fun _ => none, fun _ => false⟩

/-- The latest request with its identifiers is the one that waits. -/
def received (w : Waiting R) (ids : Ids) (remote : R) : Waiting R :=
  if ids.client = magicCookieClient then w
  else ⟨update w.remote ids (some remote), update w.known ids.caller true⟩

/-- A response of the service discovery that nobody waits for, from a client that is known. -/
def Stray (w : Waiting R) (ids : Ids) : Prop :=
  w.remote ids = none ∧ w.known ids.caller = true ∧ ids.IsSd

instance (w : Waiting R) (ids : Ids) : Decidable (w.Stray ids) :=
  decidable_of_iff ((w.remote ids).isNone = true ∧ w.known ids.caller = true ∧ ids.IsSd)
    (by rw [Option.isNone_iff_eq_none, Stray])

/-- A response is sent: nobody waits for it any more. -/
def answered (w : Waiting R) (ids : Ids) : Waiting R :=
  if w.Stray ids then nobody else ⟨update w.remote ids none, w.known⟩

theorem received_remote_ne (w : Waiting R) {ids ids' : Ids} (h : ids' ≠ ids) (remote : R) :
    (w.received ids remote).remote ids' = w.remote ids' := by
  unfold received
  split_ifs
  · rfl
  · exact update_of_ne h _ _

/-- After a response nobody waits for it, and of the others nobody new. -/
theorem answered_remote (w : Waiting R) (ids ids' : Ids) : (w.answered ids).remote ids' = none ∨
      ids' ≠ ids ∧ (w.answered ids).remote ids' = w.remote ids' := by
  unfold answered
  split_ifs
  · exact .inl rfl
  · by_cases h : ids' = ids
    · subst h
      exact .inl (update_self _ _ _)
    · exact .inr ⟨h, update_of_ne h _ _⟩

/-- The table of the endpoint holds the requests that wait. -/
structure Held (w : Waiting R) (clients : Clients R) : Prop where
  remote : ∀ ids : Ids, (inner clients ids.key).lookup ids.session = w.remote ids
  known : ∀ ids : Ids, (clients.lookup ids.key).isSome = w.known ids.caller

namespace Held

variable {w : Waiting R} {clients : Clients R}

theorem nobody : (Waiting.nobody : Waiting R).Held ∅ where
  remote _ := rfl
  known _ := rfl

/-- An assignment below a key changes what is held in one place. -/
theorem insert (h : w.Held clients) (ids : Ids) (o : Option R)
    (sessions : AList fun _ : BitVec 16 => R) (hs : ∀ session, sessions.lookup session =
      if session = ids.session then o else (inner clients ids.key).lookup session) :
    Held ⟨update w.remote ids o, update w.known ids.caller true⟩
      (clients.insert ids.key sessions) where
  remote ids' := by
    simp only [inner_insert, update_apply, ← h.remote ids', Ids.eq_iff]
    by_cases hkey : ids'.key = ids.key
    · simp only [hkey, if_true, hs, true_and]
    · rw [if_neg hkey, if_neg fun heq => hkey heq.1]
  known ids' := by
    simp only [update_apply, ← h.known ids']
    by_cases hkey : ids'.key = ids.key
    · rw [if_pos (Ids.key_eq_iff.mp hkey), hkey, AList.lookup_insert, Option.isSome_some]
    · rw [if_neg (fun heq => hkey (Ids.key_eq_iff.mpr heq)), AList.lookup_insert_ne hkey]

theorem received (h : w.Held clients) (data : List UInt8) (remote : R)
    (hreq : isRequest (byteAt data 14) = true) :
    (w.received (Ids.read data) remote).Held (clients.received data remote) := by
  unfold Waiting.received Clients.received
  rw [if_pos hreq]
  by_cases hclient : (Ids.read data).client = magicCookieClient
  · simpa only [hclient, if_true, ne_eq, not_true, if_false] using h
  · simp only [hclient, if_false, ne_eq, not_false_iff, if_true]
    refine h.insert _ _ _ fun session => ?_
    split_ifs with hsession
    · rw [hsession, AList.lookup_insert]
    · rw [AList.lookup_insert_ne hsession]

/-- A response that nobody waits for changes nothing. -/
theorem answered_of_not_stray (h : w.Held clients) {ids : Ids} (hnone : w.remote ids = none)
    (hstray : ¬ w.Stray ids) : (w.answered ids).Held clients := by
  rw [Waiting.answered, if_neg hstray, ← hnone, update_eq_self]
  exact h

/-- Where a response goes, and what it leaves. -/
theorem findTarget (h : w.Held clients) (defaultTarget : BitVec 16 → Option R) (ids : Ids) :
    (∀ remote, w.remote ids = some remote →
        (clients.findTarget defaultTarget ids).1 = some remote) ∧
      (w.remote ids = none → (clients.findTarget defaultTarget ids).1 = none ∨
        (clients.findTarget defaultTarget ids).1 = defaultTarget ids.service) ∧
      (w.answered ids).Held (clients.findTarget defaultTarget ids).2 := by
  have hremote := h.remote ids
  have hknown := h.known ids
  rcases hc : clients.lookup ids.key with _ | sessions
  · -- the client is not known, so that no request of it waits
    have hnone : w.remote ids = none := by rw [← hremote, Table.inner, hc]; rfl
    have hstray : ¬ w.Stray ids := fun hs => by
      rw [hc, hs.2.1] at hknown
      cases hknown
    have hfind : clients.findTarget defaultTarget ids = (defaultTarget ids.service, clients) := by
      simp only [Clients.findTarget, hc]
    rw [hfind]
    refine ⟨fun remote hw => ?_, fun _ => .inr rfl, h.answered_of_not_stray hnone hstray⟩
    rw [hnone] at hw
    cases hw
  · have hsessions : Table.inner clients ids.key = sessions := by rw [Table.inner, hc]; rfl
    rw [hsessions] at hremote
    rcases hsession : sessions.lookup ids.session with _ | target
    · -- the session is not known: `clients_` stays as it is, or is cleared
      have hnone : w.remote ids = none := by rw [← hremote, hsession]
      have hne : ∀ remote, w.remote ids ≠ some remote := fun remote hw => by
        rw [hnone] at hw
        cases hw
      by_cases hsd : ids.IsSd
      · have hstray : w.Stray ids := ⟨hnone, by rw [← hknown, hc]; rfl, hsd⟩
        have hfind : clients.findTarget defaultTarget ids = (defaultTarget ids.service, ∅) := by
          simp only [Clients.findTarget, hc, hsession, if_pos hsd]
        rw [hfind]
        refine ⟨fun remote hw => absurd hw (hne remote), fun _ => .inr rfl, ?_⟩
        rw [Waiting.answered, if_pos hstray]
        exact Held.nobody
      · have hfind : clients.findTarget defaultTarget ids = (none, clients) := by
          simp only [Clients.findTarget, hc, hsession, if_neg hsd]
        rw [hfind]
        exact ⟨fun remote hw => absurd hw (hne remote), fun _ => .inl rfl,
          h.answered_of_not_stray hnone fun hs => hsd hs.2.2⟩
    · have hsome : w.remote ids = some target := by rw [← hremote, hsession]
      have hstray : ¬ w.Stray ids := fun hs => by
        rw [hs.1] at hsome
        cases hsome
      have hfind : clients.findTarget defaultTarget ids =
          (some target, clients.insert ids.key (sessions.erase ids.session)) := by
        simp only [Clients.findTarget, hc, hsession]
      rw [hfind]
      refine ⟨fun remote hw => hsome ▸ hw, fun hw => ?_, ?_⟩
      · rw [hw] at hsome
        cases hsome
      · -- the entry is erased and its client stays known
        have hheld := h.insert ids none (sessions.erase ids.session) fun session => by
          rw [hsessions]
          split_ifs with hs
          · rw [hs, AList.lookup_erase]
          · rw [AList.lookup_erase_ne hs]
        have hsame : update w.known ids.caller true = w.known := by
          rw [update_eq_self_iff, ← hknown, hc, Option.isSome_some]
        rw [hsame] at hheld
        rwa [Waiting.answered, if_neg hstray]

end Held

end Waiting

/-! ### Runs -/

/-- The endpoint, the requests that wait, and how many requests with each identifiers have been
received and how many of them have been answered. -/
structure Ledger (R : Type*) where
  clients : Clients R
  waiting : Waiting R
  requests : Ids → ℕ
  answers : Ids → ℕ

namespace Ledger

variable (defaultTarget : BitVec 16 → Option R)

def start : Ledger R := ⟨∅, .nobody, fun _ => 0, fun _ => 0⟩

/-- A message is received or given to `send`; the output is the remote to which it is sent. -/
def step (l : Ledger R) : Traffic R → Except Empty (Option R × Ledger R)
  | .received data remote =>
      let ids := Ids.read data
      let clients := l.clients.received data remote
      if isRequest (byteAt data 14) then
        .ok (none, ⟨clients, l.waiting.received ids remote,
          update l.requests ids (l.requests ids + 1), l.answers⟩)
      else .ok (none, { l with clients })
  | .send data sendingBlocked =>
      let ids := Ids.read data
      let (target, clients) := l.clients.send defaultTarget data sendingBlocked
      if Clients.Sendable data sendingBlocked then
        let answers := if (l.waiting.remote ids).isSome && target.isSome then
          update l.answers ids (l.answers ids + 1) else l.answers
        .ok (target, ⟨clients, l.waiting.answered ids, l.requests, answers⟩)
      else .ok (target, { l with clients })

/-- The table is that of the requests that wait, and each of these has not been answered. -/
structure Faithful (l : Ledger R) : Prop where
  held : l.waiting.Held l.clients
  answers_le : ∀ ids, l.answers ids + (if (l.waiting.remote ids).isSome then 1 else 0) ≤
    l.requests ids

variable {defaultTarget} {l : Ledger R}

theorem Faithful.start : (Ledger.start : Ledger R).Faithful where
  held := .nobody
  answers_le _ := le_rfl

/-- A request is received. -/
theorem Faithful.received (h : l.Faithful) (data : List UInt8) (remote : R)
    (hreq : isRequest (byteAt data 14) = true) :
    Faithful ⟨l.clients.received data remote, l.waiting.received (Ids.read data) remote,
      update l.requests (Ids.read data) (l.requests (Ids.read data) + 1), l.answers⟩ where
  held := h.held.received data remote hreq
  answers_le ids := by
    have hle := h.answers_le ids
    by_cases hids : ids = Ids.read data
    · subst hids
      simp only [update_self]
      split_ifs <;> omega
    · simpa only [update_of_ne hids, l.waiting.received_remote_ne hids] using hle

/-- A response is sent: the request that waited for it has been answered. -/
theorem Faithful.findTarget (h : l.Faithful) (defaultTarget : BitVec 16 → Option R) (ids : Ids)
    (sent : Bool) :
    Faithful ⟨(l.clients.findTarget defaultTarget ids).2, l.waiting.answered ids, l.requests,
      if (l.waiting.remote ids).isSome && sent then
        update l.answers ids (l.answers ids + 1) else l.answers⟩ where
  held := (h.held.findTarget defaultTarget ids).2.2
  answers_le ids' := by
    have hle := h.answers_le ids'
    by_cases hids : ids' = ids
    · subst hids
      rcases l.waiting.answered_remote ids' ids' with hnone | ⟨hne, -⟩
      · simp only [hnone, Option.isSome_none, Bool.false_eq_true, if_false]
        rcases hw : (l.waiting.remote ids').isSome
        · simp only [hw, Bool.false_and, Bool.false_eq_true, if_false] at hle ⊢
          exact hle
        · simp only [hw, if_true] at hle
          cases sent <;> simp <;> omega
      · exact absurd rfl hne
    · have hanswers : (if (l.waiting.remote ids).isSome && sent then
          update l.answers ids (l.answers ids + 1) else l.answers) ids' =
            l.answers ids' := by
        split_ifs
        · exact update_of_ne hids _ _
        · rfl
      simp only [hanswers]
      rcases l.waiting.answered_remote ids ids' with hnone | ⟨-, hsame⟩
      · simp only [hnone, Option.isSome_none, Bool.false_eq_true, if_false]
        omega
      · rwa [hsame]

/-- **One step.** Whatever is received or sent, the table stays that of the requests that wait. -/
theorem Faithful.step {event : Traffic R} {target : Option R} {l' : Ledger R} (h : l.Faithful)
    (hstep : l.step defaultTarget event = .ok (target, l')) : l'.Faithful := by
  cases event with
  | received data remote =>
      simp only [Ledger.step] at hstep
      by_cases hreq : isRequest (byteAt data 14) = true
      · rw [if_pos hreq] at hstep
        cases hstep
        exact h.received data remote hreq
      · rw [if_neg hreq] at hstep
        cases hstep
        refine ⟨?_, h.answers_le⟩
        simpa only [Clients.received, if_neg hreq] using h.held
  | send data sendingBlocked =>
      by_cases hsend : Clients.Sendable data sendingBlocked
      · simp only [Ledger.step, Clients.send, if_pos hsend] at hstep
        cases hstep
        exact h.findTarget defaultTarget (Ids.read data) _
      · simp only [Ledger.step, Clients.send, if_neg hsend] at hstep
        cases hstep
        exact ⟨h.held, h.answers_le⟩

end Ledger

/-- A message with the identifiers and the type, without payload. -/
def bare (service method client session : UInt8 × UInt8) (type : UInt8) : List UInt8 :=
  [service.1, service.2, method.1, method.2, 0, 0, 0, 8, client.1, client.2, session.1, session.2,
    1, 1, type, 0]

end SomeipTunnel.Endpoint
