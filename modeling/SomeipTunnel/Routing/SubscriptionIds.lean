import SomeipTunnel.Lib.Run
import SomeipTunnel.Routing.RemoteSubscription

/-!
# The ids of remote subscriptions

A subscription that is added to an eventgroup, and one that brings new clients to a subscription of
the eventgroup, gets the next id of a 16-bit counter, which passes over 0, the id of no subscription.
Whether the id is in use is not checked: it comes again after 65535 assignments.

`subscription_ids_unique_iff`: in a run of any operations, each id that is assigned is free and no
subscription is overwritten, iff no subscription that is 65535 assignments old is in the table when an
id is assigned. The number of assignments, and for each id the number of the assignment that it was
last given out by, are kept beside the state for this (`assigned`, `born`).

Source: vsomeip/implementation/routing/src/eventgroupinfo.cpp, remote_subscription.cpp
-/

namespace SomeipTunnel.Routing

open StepRun List

/-! ### The code -/

namespace RemoteSubscription

variable (s : RemoteSubscription)

def getClients : List UInt16 := s.clients.keys

def getClientState (client : UInt16) : RemoteSubscriptionState :=
  match s.clients.lookup client with
  | some (state, _) => state
  | none => .unknown

/-- A client that is acknowledged for the first time gets its expiration here. -/
def setClientState (client : UInt16) (state : RemoteSubscriptionState) (now : ℕ) :
    RemoteSubscription :=
  match s.clients.lookup client with
  | some (_, expiration) =>
      let started :=
        if expiration = 0 ∧ (state = .acked ∨ state = .nacked) then now + s.ttl else expiration
      { s with clients := s.clients.insert client (state, started) }
  | none => s

def isPending : Bool := s.getClients.any fun client => s.getClientState client = .pending

/-- The client expires at the time point, if it is known. -/
def touch (timepoint : ℕ) (table : AList fun _ : UInt16 => RemoteSubscriptionState × ℕ)
    (client : UInt16) : AList fun _ : UInt16 => RemoteSubscriptionState × ℕ :=
  match table.lookup client with
  | some (state, _) => table.insert client (state, timepoint)
  | none => table

/-- The clients that are new, or that are gone, and the subscription with the clients put in or
erased. -/
def update (clients : List UInt16) (timepoint : ℕ) (isSubscribe : Bool) :
    List UInt16 × RemoteSubscription :=
  if isSubscribe then
    let changed := clients.filter fun client => client ∉ s.clients
    let found := clients.foldl (touch timepoint) s.clients
    let all := changed.foldl (fun table client => table.insert client (.pending, timepoint)) found
    (changed, { s with clients := all })
  else
    let changed := clients.filter fun client => client ∈ s.clients
    let rest := changed.foldl (fun table client => table.erase client) s.clients
    (changed, { s with clients := rest })

/-- Source: `remote_subscription::get_ip_address`. -/
def getIpAddress : Option (List UInt8) :=
  match s.reliable with
  | some endpoint => some endpoint.address
  | none => s.unreliable.map Sd.Endpoint.address

end RemoteSubscription

/-- Change an object. -/
def Heap.modify (h : Heap) (p : Ptr) (f : RemoteSubscription → RemoteSubscription) : Heap :=
  Function.update h p (f (h p))

namespace Eventgroupinfo

variable (g : Eventgroupinfo)

/-- Source: `eventgroupinfo::update_id`. -/
def nextId : UInt16 := if g.id + 1 = 0 then 1 else g.id + 1

/-- Source: `update_id(); subscriptions_[id_] = _subscription`. -/
def insertNext (p : Ptr) : Eventgroupinfo :=
  { g with
    id := g.nextId
    subscriptions := (g.subscriptions.filter fun i => i.1 ≠ g.nextId).orderedInsert
      (fun i j => i.1 ≤ j.1) (g.nextId, p) }

/-- The state of a client is copied from the subscription in the table; a client that is unknown there
is subscribed again. -/
def copyState (m p : Ptr) (now : ℕ) (isSubscribe : Bool) (r : Heap × List UInt16)
    (client : UInt16) : Heap × List UInt16 :=
  let state := (r.1 m).getClientState client
  if isSubscribe ∧ state = .unknown then
    (r.1.modify p fun s => s.setClientState client .pending now, r.2.insert client)
  else (r.1.modify p fun s => s.setClientState client state now, r.2)

/-- Source: `eventgroupinfo::update_remote_subscription`. The result is the set of changed clients and
the id of the subscription that was updated, if there is one. -/
def updateRemoteSubscription (h : Heap) (p : Ptr) (expiration now : ℕ) (isSubscribe : Bool) :
    Heap × Eventgroupinfo × Option (List UInt16 × UInt16) :=
  match g.findEqual h p with
  | none => (h, g, none)
  | some (_, m) =>
      let updated := (h m).update (h p).getClients expiration isSubscribe
      let h₁ := h.modify m fun _ => updated.2
      let copied := (h₁ p).getClients.foldl (copyState m p now isSubscribe) (h₁, updated.1)
      let result := some (copied.2, (copied.1 m).id)
      if isSubscribe then
        if copied.2 ≠ [] then
          -- new clients: the subscription becomes a child of the one in the table
          (copied.1.modify p fun s => { s with parent := some m, id := g.nextId },
            g.insertNext p, result)
        else if (copied.1 p).isPending then
          ((copied.1.modify m fun s => { s with answers := s.answers + 1 }).modify p
            fun s => { s with parent := some m, answers := 0 }, g, result)
        else if (copied.1 p).forceInitialEvents then (copied.1, g, result)
        else (copied.1.modify p fun s => { s with isInitial := false }, g, result)
      else (copied.1, g, result)

/-- Source: `eventgroupinfo::add_remote_subscription`. -/
def addRemoteSubscription (h : Heap) (p : Ptr) : Heap × Eventgroupinfo :=
  let g' := g.insertNext p
  (h.modify p fun s => { s with id := g.nextId },
    match (h p).getIpAddress with
    | none => g'
    | some address => { g' with
        remoteSubscribersCount := g.remoteSubscribersCount.insert address
          ((g.remoteSubscribersCount.lookup address).getD 0 + 1) })

/-- Source: `eventgroupinfo::get_remote_subscription`. -/
def getRemoteSubscription (id : UInt16) : Option Ptr := g.subscriptions.lookup id

/-- Source: `remove_remote_subscription`, the part that counts. -/
def uncount (address : List UInt8) : AList fun _ : List UInt8 => UInt8 :=
  match g.remoteSubscribersCount.lookup address with
  | none => g.remoteSubscribersCount
  | some count =>
      if count ≠ 0 then g.remoteSubscribersCount.insert address (count - 1)
      else g.remoteSubscribersCount

/-- Source: `eventgroupinfo::remove_remote_subscription`. -/
def removeRemoteSubscription (h : Heap) (id : UInt16) : Eventgroupinfo :=
  { g with
    subscriptions := g.subscriptions.filter fun i => i.1 ≠ id
    remoteSubscribersCount :=
      match (g.getRemoteSubscription id).bind fun p => (h p).getIpAddress with
      | none => g.remoteSubscribersCount
      | some address => g.uncount address }

/-- Source: `eventgroupinfo::clear_remote_subscriptions`. -/
def clearRemoteSubscriptions : Eventgroupinfo :=
  { g with subscriptions := [], remoteSubscribersCount := ∅ }

end Eventgroupinfo

/-! ### Runs -/

/-- What happens to an eventgroup. -/
inductive TableEvent
  | add (p : Ptr)
  | update (p : Ptr) (expiration now : ℕ) (isSubscribe : Bool)
  | remove (id : UInt16)
  | clear
  /-- Objects are allocated or changed by others. -/
  | others (heap : Heap)

/-- An eventgroup with the objects, the number of ids that it assigned, and for each id the number of
its last assignment. -/
structure NumberedTable where
  heap : Heap
  info : Eventgroupinfo
  assigned : ℕ
  born : UInt16 → ℕ

namespace NumberedTable

variable (w : NumberedTable)

/-- A new eventgroup. -/
def new (heap : Heap) (max : UInt8) : NumberedTable := ⟨heap, ⟨[], 0, ∅, max⟩, 0, fun _ => 0⟩

/-- The counter moves when an id is assigned. -/
def record (heap : Heap) (info : Eventgroupinfo) : NumberedTable :=
  if info.id = w.info.id then { w with heap := heap, info := info }
  else ⟨heap, info, w.assigned + 1, Function.update w.born info.id (w.assigned + 1)⟩

def after : TableEvent → NumberedTable
  | .add p =>
      let added := w.info.addRemoteSubscription w.heap p
      w.record added.1 added.2
  | .update p expiration now isSubscribe =>
      let updated := w.info.updateRemoteSubscription w.heap p expiration now isSubscribe
      w.record updated.1 updated.2.1
  | .remove id => w.record w.heap (w.info.removeRemoteSubscription w.heap id)
  | .clear => w.record w.heap w.info.clearRemoteSubscriptions
  | .others heap => w.record heap w.info

def step (e : TableEvent) : Except Empty (Unit × NumberedTable) := .ok ((), w.after e)

/-- **The assigned id is unique**: an id that a step assigns is not the one of no subscription and not
that of a subscription in the table, and all of these stay there. -/
def Unique (e : TableEvent) : Prop :=
  (w.after e).info.id ≠ w.info.id →
    (w.after e).info.id ≠ 0 ∧ (∀ i ∈ w.info.subscriptions, i.1 ≠ (w.after e).info.id) ∧
      ∀ i ∈ w.info.subscriptions, i ∈ (w.after e).info.subscriptions

/-- The step assigns an id: a subscription is added, or it has a client that the first equal
subscription in the table does not know. -/
def Assigns : TableEvent → Prop
  | .add _ => True
  | .update p _ _ isSubscribe => isSubscribe = true ∧ ∃ i, w.info.findEqual w.heap p = some i ∧
      ∃ client ∈ (w.heap p).getClients, (w.heap i.2).getClientState client = .unknown
  | _ => False

/-- No subscription in the table is 65535 assignments old when an id is assigned. -/
def Young (e : TableEvent) : Prop :=
  w.Assigns e → ∀ i ∈ w.info.subscriptions, w.born i.1 + 65535 ≠ w.assigned + 1

end NumberedTable

/-! ### When an update assigns an id -/

namespace RemoteSubscription

variable {s : RemoteSubscription} {client c : UInt16}

/-- The state of a client in the table, if it is there. -/
def stateIn (table : AList fun _ : UInt16 => RemoteSubscriptionState × ℕ) (client : UInt16) :
    Option RemoteSubscriptionState :=
  (table.lookup client).map Prod.fst

theorem getClientState_eq : s.getClientState client = (stateIn s.clients client).getD .unknown := by
  rw [getClientState, stateIn]
  rcases s.clients.lookup client with _ | ⟨state, expiration⟩ <;> rfl

theorem isSome_stateIn {table : AList fun _ : UInt16 => RemoteSubscriptionState × ℕ} :
    (stateIn table client).isSome = true ↔ client ∈ table := by
  rw [stateIn, Option.isSome_map, AList.lookup_isSome]

/-- The entry of a client with the state that it has. -/
theorem stateIn_insert {table : AList fun _ : UInt16 => RemoteSubscriptionState × ℕ}
    {state : RemoteSubscriptionState} {expiration : ℕ} (h : stateIn table client = some state) :
    stateIn (table.insert client (state, expiration)) = stateIn table := by
  funext c
  by_cases hc : c = client
  · rw [hc, h, stateIn, AList.lookup_insert, Option.map_some]
  · rw [stateIn, AList.lookup_insert_ne hc, stateIn]

theorem stateIn_touch (timepoint : ℕ)
    (table : AList fun _ : UInt16 => RemoteSubscriptionState × ℕ) (client : UInt16) :
    stateIn (touch timepoint table client) = stateIn table := by
  unfold touch
  rcases h : table.lookup client with _ | ⟨state, expiration⟩
  · rfl
  · exact stateIn_insert (by rw [stateIn, h, Option.map_some])

theorem stateIn_foldl_touch (timepoint : ℕ) (clients : List UInt16)
    (table : AList fun _ : UInt16 => RemoteSubscriptionState × ℕ) :
    stateIn (clients.foldl (touch timepoint) table) = stateIn table := by
  induction clients generalizing table with
  | nil => rfl
  | cons client clients ih => rw [foldl_cons, ih, stateIn_touch]

/-- Setting the state that a client has changes no state. -/
theorem stateIn_setClientState_self (now : ℕ) :
    stateIn (s.setClientState client (s.getClientState client) now).clients = stateIn s.clients := by
  unfold setClientState getClientState
  rcases h : s.clients.lookup client with _ | ⟨state, expiration⟩
  · rfl
  · exact stateIn_insert (by rw [stateIn, h, Option.map_some])

/-- Where all clients are known, an update that subscribes reports none and keeps the states. -/
theorem update_of_forall_mem {clients : List UInt16} (timepoint : ℕ)
    (h : ∀ client ∈ clients, client ∈ s.clients) : (s.update clients timepoint true).1 = [] ∧
      stateIn (s.update clients timepoint true).2.clients = stateIn s.clients := by
  have hchanged : (clients.filter fun client => client ∉ s.clients) = [] := by
    rw [filter_eq_nil_iff]
    intro client hclient
    simpa using h client hclient
  refine ⟨hchanged, ?_⟩
  simp only [update, if_true, hchanged, foldl_nil]
  exact stateIn_foldl_touch timepoint clients s.clients

theorem mem_getClients : client ∈ s.getClients ↔ (stateIn s.clients client).isSome = true := by
  rw [isSome_stateIn, getClients, AList.mem_keys]

end RemoteSubscription

namespace Eventgroupinfo

open RemoteSubscription

variable {h : Heap} {m : Ptr} (p : Ptr) (now : ℕ)

/-- Copying the state of a known client keeps the states of the subscription in the table, also if it
is the one that the states are copied to. -/
theorem stateIn_copyState {r : Heap × List UInt16} {client : UInt16}
    (hknown : (r.1 m).getClientState client ≠ .unknown) :
    stateIn ((copyState m p now true r client).1 m).clients = stateIn (r.1 m).clients ∧
      (copyState m p now true r client).2 = r.2 := by
  have hcopy : copyState m p now true r client = (r.1.modify p fun s =>
      s.setClientState client ((r.1 m).getClientState client) now, r.2) := by
    simp [copyState, hknown]
  rw [hcopy]
  refine ⟨?_, rfl⟩
  by_cases hp : m = p
  · subst hp
    simp only [Heap.modify, Function.update_self]
    exact stateIn_setClientState_self now
  · simp only [Heap.modify, Function.update_of_ne hp]

/-- A client is reported iff one was, or one of those that are copied is unknown. -/
theorem copied_ne_nil_iff (clients : List UInt16) (r : Heap × List UInt16) :
    (clients.foldl (copyState m p now true) r).2 ≠ [] ↔
      r.2 ≠ [] ∨ ∃ client ∈ clients, (r.1 m).getClientState client = .unknown := by
  induction clients generalizing r with
  | nil => simp
  | cons client clients ih =>
      rw [foldl_cons, ih]
      by_cases hknown : (r.1 m).getClientState client = .unknown
      · have hinsert : (copyState m p now true r client).2 ≠ [] := by
          simp only [copyState, hknown, and_self, if_true]
          exact ne_nil_of_mem mem_insert_self
        exact iff_of_true (.inl hinsert) (.inr ⟨client, mem_cons_self, hknown⟩)
      · obtain ⟨hstates, hchanged⟩ := stateIn_copyState p now hknown
        rw [hchanged]
        simp only [getClientState_eq, hstates, exists_mem_cons_iff] at hknown ⊢
        rw [or_iff_right hknown]

/-- The clients that an update that subscribes reports: those that the subscription in the table does
not know. -/
theorem reported_ne_nil_iff (expiration : ℕ) :
    let updated := (h m).update (h p).getClients expiration true
    let h₁ := h.modify m fun _ => updated.2
    ((h₁ p).getClients.foldl (copyState m p now true) (h₁, updated.1)).2 ≠ [] ↔
      ∃ client ∈ (h p).getClients, (h m).getClientState client = .unknown := by
  intro updated h₁
  rw [copied_ne_nil_iff]
  by_cases hall : ∀ client ∈ (h p).getClients, client ∈ (h m).clients
  · -- the clients and the states are those from before
    obtain ⟨hchanged, hstates⟩ := update_of_forall_mem expiration hall
    have hm : stateIn (h₁ m).clients = stateIn (h m).clients := by
      simpa only [h₁, Heap.modify, Function.update_self] using hstates
    have hp : stateIn (h₁ p).clients = stateIn (h p).clients := by
      by_cases hpm : p = m
      · rw [hpm, hm]
      · simp only [h₁, Heap.modify, Function.update_of_ne hpm]
    rw [or_iff_right (not_not.mpr hchanged)]
    simp only [mem_getClients, getClientState_eq, hm, hp]
  · -- a client that is not in the table is reported by the update itself
    push Not at hall
    obtain ⟨client, hclient, hnew⟩ := hall
    have hreported : client ∈ updated.1 := by
      simpa [updated, update, hclient] using hnew
    refine iff_of_true (.inl (ne_nil_of_mem hreported)) ⟨client, hclient, ?_⟩
    rw [getClientState_eq, Option.not_isSome_iff_eq_none.mp (mt isSome_stateIn.mp hnew)]
    rfl

end Eventgroupinfo

namespace NumberedTable

variable {w : NumberedTable} {e : TableEvent}

open Eventgroupinfo

theorem record_info (heap : Heap) (info : Eventgroupinfo) : (w.record heap info).info = info := by
  unfold record
  split_ifs <;> rfl

theorem info_after_add (p : Ptr) : (w.after (.add p)).info.id = w.info.nextId ∧
      (w.after (.add p)).info.subscriptions = (w.info.insertNext p).subscriptions := by
  rw [after, record_info, addRemoteSubscription]
  rcases (w.heap p).getIpAddress with _ | address
  · exact ⟨rfl, rfl⟩
  · exact ⟨rfl, rfl⟩

theorem info_after_remove (id : UInt16) :
    (w.after (.remove id)).info = w.info.removeRemoteSubscription w.heap id :=
  record_info w.heap _

/-- A step that assigns an id inserts a subscription under the next one. -/
theorem info_after_of_assigns (h : w.Assigns e) :
    (w.after e).info.id = w.info.nextId ∧ ∃ p, (w.after e).info.subscriptions =
      (w.info.insertNext p).subscriptions := by
  cases e with
  | add p => exact ⟨(info_after_add p).1, p, (info_after_add p).2⟩
  | update p expiration now isSubscribe =>
      obtain ⟨rfl, ⟨id, m⟩, hfound, hnew⟩ := h
      rw [after, record_info, updateRemoteSubscription, hfound]
      have hreported := (reported_ne_nil_iff p now expiration).mpr hnew
      simp only [if_true, if_pos hreported]
      exact ⟨rfl, p, rfl⟩
  | remove id => exact h.elim
  | clear => exact h.elim
  | others heap => exact h.elim

/-- Any other step keeps the counter and puts nothing into the table. -/
theorem info_after_of_not_assigns (h : ¬ w.Assigns e) : (w.after e).info.id = w.info.id ∧
      ∀ i ∈ (w.after e).info.subscriptions, i ∈ w.info.subscriptions := by
  cases e with
  | add p => exact absurd trivial h
  | update p expiration now isSubscribe =>
      suffices (w.info.updateRemoteSubscription w.heap p expiration now isSubscribe).2.1 = w.info by
        rw [after, record_info, this]
        exact ⟨rfl, fun i hi => hi⟩
      rw [updateRemoteSubscription]
      rcases hfound : w.info.findEqual w.heap p with _ | ⟨id, m⟩
      · rfl
      · cases isSubscribe with
        | false => rfl
        | true =>
            have hreported := mt (reported_ne_nil_iff p now expiration).mp
              fun hnew => h ⟨rfl, (id, m), hfound, hnew⟩
            simp only [if_true, if_neg hreported]
            split_ifs <;> rfl
  | remove id =>
      rw [info_after_remove]
      exact ⟨rfl, fun i hi => mem_of_mem_filter hi⟩
  | clear =>
      rw [after, record_info]
      exact ⟨rfl, fun i hi => absurd hi not_mem_nil⟩
  | others heap =>
      rw [after, record_info]
      exact ⟨rfl, fun i hi => hi⟩

/-! ### Ids and numbers of assignments -/

/-- The id that the `n`-th assignment gives out. -/
def idOf (n : ℕ) : ℕ := if n = 0 then 0 else (n - 1) % 65535 + 1

theorem nextId_ne (g : Eventgroupinfo) : g.nextId ≠ g.id ∧ g.nextId ≠ 0 := by
  unfold nextId
  split_ifs with h
  · refine ⟨fun hid => ?_, by decide⟩
    rw [← hid] at h
    exact absurd h (by decide)
  · refine ⟨fun hid => ?_, h⟩
    have := congrArg UInt16.toNat hid
    rw [UInt16.toNat_add, UInt16.toNat_one] at this
    omega

theorem toNat_nextId {g : Eventgroupinfo} {n : ℕ} (h : g.id.toNat = idOf n) :
    g.nextId.toNat = idOf (n + 1) := by
  have hnext : g.nextId.toNat = if g.id.toNat = 65535 then 1 else g.id.toNat + 1 := by
    unfold nextId
    have hlt := g.id.toNat_lt
    have hadd : (g.id + 1).toNat = (g.id.toNat + 1) % 65536 := by
      rw [UInt16.toNat_add, UInt16.toNat_one]
    split_ifs with hzero hmax hmax
    · rfl
    · rw [← UInt16.toNat_inj, hadd, UInt16.toNat_zero] at hzero
      omega
    · rw [← UInt16.toNat_inj, hadd, UInt16.toNat_zero] at hzero
      omega
    · omega
  rw [hnext, h]
  unfold idOf
  split_ifs <;> omega

/-- Within 65535 assignments an id comes again only after all of them. -/
theorem idOf_eq_iff {k n : ℕ} (hk : 0 < k) (hkn : k ≤ n) (hn : n < k + 65535) :
    idOf k = idOf (n + 1) ↔ k + 65535 = n + 1 := by
  unfold idOf
  rw [if_neg hk.ne', if_neg n.succ_ne_zero]
  omega

/-- The counter is the id of the last assignment, and the subscriptions in the table have the ids of
assignments less than 65535 ago. -/
structure Numbered (w : NumberedTable) : Prop where
  id : w.info.id.toNat = idOf w.assigned
  born : ∀ i ∈ w.info.subscriptions, i.1.toNat = idOf (w.born i.1) ∧ 0 < w.born i.1 ∧
    w.born i.1 ≤ w.assigned ∧ w.assigned < w.born i.1 + 65535

/-- The next id is that of a subscription in the table iff this is 65535 assignments old. -/
theorem Numbered.eq_nextId_iff (h : Numbered w) {i : UInt16 × Ptr} (hi : i ∈ w.info.subscriptions) :
    i.1 = w.info.nextId ↔ w.born i.1 + 65535 = w.assigned + 1 := by
  obtain ⟨hid, hpos, hle, hlt⟩ := h.born i hi
  rw [← UInt16.toNat_inj, toNat_nextId h.id, hid, idOf_eq_iff hpos hle hlt]

theorem mem_insertNext {g : Eventgroupinfo} {p : Ptr} {i : UInt16 × Ptr} :
    i ∈ (g.insertNext p).subscriptions ↔
      i = (g.nextId, p) ∨ (i ∈ g.subscriptions ∧ i.1 ≠ g.nextId) := by
  simp [insertNext]

theorem Numbered.unique_iff (h : Numbered w) (e : TableEvent) : w.Unique e ↔ w.Young e := by
  by_cases hassigns : w.Assigns e
  · obtain ⟨hid, p, hsubscriptions⟩ := info_after_of_assigns hassigns
    obtain ⟨hmoves, hzero⟩ := nextId_ne w.info
    unfold Unique Young
    rw [hid, hsubscriptions]
    constructor
    · intro hunique _ i hi hold
      exact (hunique hmoves).2.1 i hi ((h.eq_nextId_iff hi).mpr hold)
    · intro hyoung _
      have hfree : ∀ i ∈ w.info.subscriptions, i.1 ≠ w.info.nextId :=
        fun i hi hnext => hyoung hassigns i hi ((h.eq_nextId_iff hi).mp hnext)
      exact ⟨hzero, hfree, fun i hi => mem_insertNext.mpr (.inr ⟨hi, hfree i hi⟩)⟩
  · refine iff_of_true (fun hmoves => ?_) fun h => absurd h hassigns
    exact absurd (info_after_of_not_assigns hassigns).1 hmoves

theorem exists_after_eq_record (w : NumberedTable) (e : TableEvent) :
    ∃ heap, w.after e = w.record heap (w.after e).info := by
  cases e <;> rw [NumberedTable.after, record_info] <;> exact ⟨_, rfl⟩

/-- A step whose assignment meets no subscription of 65535 assignments ago keeps the numbers. -/
theorem Numbered.after (h : Numbered w) (hyoung : w.Young e) : Numbered (w.after e) := by
  obtain ⟨heap, hrecord⟩ := exists_after_eq_record w e
  by_cases hassigns : w.Assigns e
  · obtain ⟨hid, p, hsubscriptions⟩ := info_after_of_assigns hassigns
    have hmoves : (w.after e).info.id ≠ w.info.id := hid ▸ (nextId_ne w.info).1
    rw [record, if_neg hmoves] at hrecord
    have hassigned : (w.after e).assigned = w.assigned + 1 := by rw [hrecord]
    have hborn : (w.after e).born = Function.update w.born w.info.nextId (w.assigned + 1) := by
      rw [hrecord, hid]
    have hnext := toNat_nextId h.id
    refine ⟨by rw [hid, hassigned, hnext], ?_⟩
    rw [hsubscriptions, hassigned, hborn]
    intro i hi
    rcases mem_insertNext.mp hi with rfl | ⟨hi, hne⟩
    · rw [Function.update_self]
      exact ⟨hnext, by omega, by omega, by omega⟩
    · -- one assignment older than before, and by the condition not too old
      rw [Function.update_of_ne hne]
      obtain ⟨hidOf, hpos, hle, hlt⟩ := h.born i hi
      have := hyoung hassigns i hi
      exact ⟨hidOf, hpos, by omega, by omega⟩
  · obtain ⟨hid, hsubset⟩ := info_after_of_not_assigns hassigns
    rw [record, if_pos hid] at hrecord
    have hassigned : (w.after e).assigned = w.assigned := by rw [hrecord]
    have hborn : (w.after e).born = w.born := by rw [hrecord]
    refine ⟨by rw [hid, hassigned, h.id], fun i hi => ?_⟩
    rw [hborn, hassigned]
    exact h.born i (hsubset i hi)

/-- **Subscription ids are unique** in a run of a new eventgroup iff no subscription is 65535
assignments old. -/
theorem subscription_ids_unique_iff (heap : Heap) (max : UInt8) (events : List TableEvent) :
    AllSteps step Unique (new heap max) events ↔ AllSteps step Young (new heap max) events := by
  refine AllSteps.iff_of_invariant Numbered ?_ (fun w e h => h.unique_iff e) ?_
  · rintro w e o w' h hyoung hstep
    cases hstep
    exact h.after hyoung
  · exact ⟨rfl, fun i hi => absurd hi not_mem_nil⟩

/-- A subscription that stays, and `k` others that are added and removed one after the other. -/
def history : ℕ → List TableEvent
  | 0 => [.add 0]
  | k + 1 => history k ++ [.add 1, .remove (UInt16.ofNat (k + 2))]

theorem toNat_ofNat {k : ℕ} (hk : k < 65536) : (UInt16.ofNat k).toNat = k :=
  UInt16.toNat_ofNat_of_lt' hk

theorem nextId_eq_ofNat {g : Eventgroupinfo} {k : ℕ} (hk : k < 65534)
    (h : g.id = UInt16.ofNat (k + 1)) : g.nextId = UInt16.ofNat (k + 2) := by
  have hid : g.id.toNat = k + 1 := by rw [h, toNat_ofNat (by omega)]
  have hidOf : g.id.toNat = idOf (k + 1) := by
    rw [hid, idOf, if_neg k.succ_ne_zero]
    omega
  rw [← UInt16.toNat_inj, toNat_nextId hidOf, toNat_ofNat (by omega), idOf,
    if_neg (by omega)]
  omega

/-- The first subscription is alone in the table, while the counter goes on. -/
theorem run_history (heap : Heap) (max : UInt8) (k : ℕ) (hk : k ≤ 65534) :
    ∃ os w, run step (new heap max) (history k) = .ok (os, w) ∧
      w.info.subscriptions = [(1, 0)] ∧ w.info.id = UInt16.ofNat (k + 1) := by
  induction k with
  | zero =>
      obtain ⟨hid, hsubscriptions⟩ := info_after_add (w := new heap max) 0
      exact ⟨[()], (new heap max).after (.add 0), rfl, hsubscriptions, hid⟩
  | succ k ih =>
      obtain ⟨os, w, hrun, hsubscriptions, hid⟩ := ih (by omega)
      have hnext := nextId_eq_ofNat (by omega) hid
      have hne : (1 : UInt16) ≠ UInt16.ofNat (k + 2) := by
        rw [ne_eq, ← UInt16.toNat_inj, toNat_ofNat (by omega), UInt16.toNat_one]
        omega
      obtain ⟨hid', hsubscriptions'⟩ := info_after_add (w := w) 1
      refine ⟨os ++ [(), ()], (w.after (.add 1)).after (.remove (UInt16.ofNat (k + 2))),
        run_append hrun rfl, ?_, ?_⟩
      · -- the second subscription is removed again, the first one is not touched
        rw [info_after_remove]
        simp only [removeRemoteSubscription, hsubscriptions', insertNext, hsubscriptions, hnext]
        generalize UInt16.ofNat (k + 2) = n at hne
        by_cases hle : n ≤ 1
        · simp [hne, hle]
        · simp [hne, hle]
      · rw [info_after_remove]
        exact hid'.trans hnext

/-- At the last id, the counter meets the subscription that stays. -/
theorem overwritten_of_run {w w' : NumberedTable} {events : List TableEvent} {os : List Unit}
    (hrun : run step w events = .ok (os, w')) (hsubscriptions : w'.info.subscriptions = [(1, 0)])
    (hid : w'.info.id = UInt16.ofNat 65535) : (w'.after (.add 1)).info.subscriptions = [(1, 1)] ∧
      ¬ AllSteps step Unique w (events ++ [.add 1]) := by
  have hnext : w'.info.nextId = 1 := by
    rw [nextId, hid]
    decide
  obtain ⟨hid', hsubscriptions'⟩ := info_after_add (w := w') 1
  refine ⟨by simp [hsubscriptions', insertNext, hsubscriptions, hnext], fun hall => ?_⟩
  have hunique := hall.of_run_concat hrun
  rw [Unique, hid', hsubscriptions] at hunique
  exact (hunique (nextId_ne w'.info).1).2.1 (1, 0) mem_cons_self hnext.symm

/-- Subscriptions without clients. -/
def bareHeap : Heap := fun _ => ⟨0, true, false, none, none, 3, ∅, none, none, 0, .none⟩

/-- The subscription that stays is overwritten at the 65536-th assignment. -/
theorem old_subscription_overwritten :
    ∃ os w, run step (new bareHeap 255) (history 65534) = .ok (os, w) ∧
      w.info.subscriptions = [(1, 0)] ∧ (w.after (.add 1)).info.subscriptions = [(1, 1)] ∧
      ¬ AllSteps step Unique (new bareHeap 255) (history 65534 ++ [.add 1]) := by
  obtain ⟨os, w, hrun, hsubscriptions, hid⟩ := run_history bareHeap 255 65534 le_rfl
  exact ⟨os, w, hrun, hsubscriptions, overwritten_of_run hrun hsubscriptions hid⟩

end NumberedTable

end SomeipTunnel.Routing
