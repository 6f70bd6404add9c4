import SomeipTunnel.Lib.Run

/-!
# The clients that wait for a debounced value

A subscriber with a debounce filter can ask for the current value when its interval is over. The
routing manager keeps an entry for it, in a multimap by deadlines that one timer works off, with a
flag that an update is pending. An entry is removed by its deadline and updated by the event id, and a
callback of the timer takes the first entry for its own.

`debounce_bookkeeping_iff`: along a run each registered subscriber has exactly one entry, an operation
changes only the entries it is about, no callback meets an empty container, and a pending update is
notified once and in time, iff each step meets `Undisturbed`: nobody registers twice, no foreign entry
has the client and the event id, or the deadline, of one that is removed, an update finds no foreign
entry with the event id whose flag it changes, and the callback of a subscriber runs when its own entry
is the first.

Time is in nanoseconds, intervals are in milliseconds. A handler of the timer that was due when the
timer was set again can still run. The time of the last forwarding belongs to the filter, which the
event changes; a callback finds any.

Source: vsomeip/implementation/routing/src/routing_manager_base.cpp
-/

namespace SomeipTunnel.Routing.Debounce

open List StepRun

/-! ### The code -/

/-- An event. Two of different services can have the same id. -/
structure EventObject where
  service : UInt16
  instanceId : UInt16
  event : UInt16
deriving DecidableEq

/-- What is bound in `debounce_timeout_update_cbk`. -/
structure Callback where
  event : EventObject
  client : UInt16
  interval : ℤ
deriving DecidableEq

/-- A subscriber: the client and the event. -/
abbrev Subscriber := UInt16 × EventObject

def Callback.subscriber (c : Callback) : Subscriber := (c.client, c.event)

/-- An element of `debounce_clients_`. -/
structure Entry where
  deadline : ℤ
  client : UInt16
  hasUpdate : Bool
  callback : Callback
  event : UInt16
deriving DecidableEq

/-- Whom the entry is for. -/
def Entry.subscriber (e : Entry) : Subscriber := (e.client, e.callback.event)

/-- The container, the handlers of the timer with their times, and the subscribers that are registered
and not removed. -/
structure State where
  clock : ℤ
  debounceClients : List Entry
  handlers : List (ℤ × Callback)
  registered : Finset Subscriber
deriving DecidableEq

inductive Operation
  | register (sendCurrentValueAfter : Bool) (callback : Callback)
  | remove (client : UInt16) (event : EventObject)
  | update (clients : List UInt16) (event : EventObject)
  /-- A handler is run, while the client is or is not subscribed. -/
  | timer (handler : ℕ) (isSubscribed : Bool) (lastForwarded : Option ℤ)

def millisecond : ℤ := 1000000

/-- `multimap::emplace`: behind the elements with the same key. -/
def emplace (e : Entry) : List Entry → List Entry
  | [] => [e]
  | x :: l => if x.deadline ≤ e.deadline then x :: emplace e l else e :: x :: l

theorem emplace_perm (e : Entry) (l : List Entry) : (emplace e l).Perm (e :: l) := by
  induction l with
  | nil => exact List.Perm.refl _
  | cons x l ih =>
      unfold emplace
      split_ifs
      · exact (ih.cons x).trans (List.Perm.swap e x l)
      · exact List.Perm.refl _

variable {e : Entry}

theorem mem_emplace {x : Entry} {l : List Entry} : x ∈ emplace e l ↔ x = e ∨ x ∈ l := by
  rw [(emplace_perm e l).mem_iff, mem_cons]

/-- The element that is emplaced is the first one. -/
def isBegin (e : Entry) (l : List Entry) : Bool := l.head?.all fun x => e.deadline < x.deadline

/-- `is_elapsed` -/
def isElapsed (now interval : ℤ) (lastForwarded : Option ℤ) : Bool :=
  lastForwarded.all fun last => interval ≤ (now - last).tdiv millisecond

namespace State

variable (s : State)

/-- Set the timer. The handlers that are not due are cancelled. -/
def setTimer (expiry : ℤ) (callback : Callback) : State :=
  { s with handlers := (s.handlers.filter fun h => h.1 ≤ s.clock) ++ [(expiry, callback)] }

/-- Set the timer for the first entry. -/
def setTimerForBegin : State :=
  match s.debounceClients with
  | [] => s
  | e :: _ =>
      s.setTimer (s.clock + (e.deadline - s.clock).tdiv millisecond * millisecond) e.callback

/-- Source: `routing_manager_base::register_debounce`. -/
def registerDebounce (sendCurrentValueAfter : Bool) (c : Callback) : State :=
  if sendCurrentValueAfter then
    let timeout := s.clock + c.interval * millisecond
    let elem : Entry := ⟨timeout, c.client, false, c, c.event.event⟩
    let s' := { s with
      debounceClients := emplace elem s.debounceClients
      registered := insert c.subscriber s.registered }
    if isBegin elem s.debounceClients then s'.setTimer timeout c else s'
  else s

/-- The time points that `remove_debounce` erases. -/
def removedDeadlines (client event : UInt16) : List ℤ :=
  (s.debounceClients.filter fun e => e.client = client ∧ e.event = event).map Entry.deadline

/-- Source: `routing_manager_base::remove_debounce`, for an event with its id. -/
def removeDebounce (client : UInt16) (event : EventObject) : State :=
  { s with
    debounceClients := s.debounceClients.filter fun e =>
      e.deadline ∉ s.removedDeadlines client event.event
    registered := s.registered.erase (client, event) }

/-- The flag of an entry, for an event id. -/
def mark (clients : List UInt16) (event : UInt16) (e : Entry) : Entry :=
  if event = e.event then { e with hasUpdate := e.client ∉ clients } else e

/-- Source: `routing_manager_base::update_debounce_clients`, for an event with its id. -/
def updateDebounceClients (clients : List UInt16) (event : EventObject) : State :=
  { s with debounceClients := s.debounceClients.map (mark clients event.event) }

/-- Source: `routing_manager_base::debounce_timeout_update_cbk`. The result says whether the client is
notified; there is none if `begin()` of the empty container is used. -/
def debounceTimeoutUpdateCbk (c : Callback) (isSubscribed : Bool) (lastForwarded : Option ℤ) :
    Except Unit (Bool × State) :=
  if isSubscribed then
    match s.debounceClients with
    | [] => .error ()
    | first :: rest =>
        let isElapsed := isElapsed s.clock c.interval lastForwarded
        let notify := isElapsed && first.client = c.client && first.hasUpdate
        let elapsed := if isElapsed then 0
          else lastForwarded.elim 0 fun last => (s.clock - last).tdiv millisecond
        let timeout := s.clock + (c.interval - elapsed) * millisecond
        let elem : Entry := ⟨timeout, c.client, first.hasUpdate && !notify, c, first.event⟩
        .ok (notify, { s with debounceClients := emplace elem rest }.setTimerForBegin)
  else .ok (false, s.setTimerForBegin)

/-- The callback of a handler that can run. -/
def due (handler : ℕ) : Option Callback :=
  (s.handlers[handler]?.filter fun h => h.1 ≤ s.clock).map Prod.snd

/-- Time passes. -/
def wait (elapsed : ℕ) : State := { s with clock := s.clock + elapsed }

/-- An operation, with the subscriber that is notified. -/
def perform : Operation → Except Unit (Option Subscriber × State)
  | .register sendCurrentValueAfter c => .ok (none, s.registerDebounce sendCurrentValueAfter c)
  | .remove client event => .ok (none, s.removeDebounce client event)
  | .update clients event => .ok (none, s.updateDebounceClients clients event)
  | .timer handler isSubscribed lastForwarded =>
      match s.due handler with
      | none => .ok (none, s)
      | some c =>
          match { s with handlers := s.handlers.eraseIdx handler }.debounceTimeoutUpdateCbk c
              isSubscribed lastForwarded with
          | .error e => .error e
          | .ok (notify, s') => .ok (if notify then some c.subscriber else none, s')

/-- An operation, with the time that passes before it. -/
def step (e : ℕ × Operation) : Except Unit (Option Subscriber × State) :=
  (s.wait e.1).perform e.2

/-! ### Being right -/

/-- One entry for each registered subscriber. -/
structure Exact : Prop where
  nodup : (s.debounceClients.map Entry.subscriber).Nodup
  mem : ∀ k, k ∈ s.debounceClients.map Entry.subscriber ↔ k ∈ s.registered

/-- The subscribers that an operation is about. -/
def About : Operation → Subscriber → Prop
  | .register _ c, k => k = c.subscriber
  | .remove client event, k => k = (client, event)
  | .update _ event, k => k.2 = event
  | .timer handler _ _, k => ∃ c, s.due handler = some c ∧ k = c.subscriber

/-- The subscriber has a pending update. -/
def Pending (k : Subscriber) : Prop :=
  ∃ e ∈ s.debounceClients, e.subscriber = k ∧ e.hasUpdate = true

/-- The interval of the callback that an operation runs has elapsed. -/
def Elapsed : Operation → Prop
  | .timer handler _ lastForwarded => ∃ c, s.due handler = some c ∧
      ∀ last ∈ lastForwarded, c.interval ≤ (s.clock - last).tdiv millisecond
  | _ => False

/-- **The bookkeeping is right** in an operation that leads from `s` to `s'`. -/
structure Right (op : Operation) (notified : Option Subscriber) (s' : State) : Prop where
  exact : s'.Exact
  foreign : ∀ e : Entry, ¬ s.About op e.subscriber →
    (e ∈ s'.debounceClients ↔ e ∈ s.debounceClients)
  /-- Only an update makes updates pending. -/
  raised : (∀ clients event, op ≠ .update clients event) → ∀ k, s'.Pending k → s.Pending k
  /-- A notification is for a pending update, in time, and takes it. -/
  notified : ∀ k ∈ notified, s.Pending k ∧ s.Elapsed op ∧ ¬ s'.Pending k

/-- A step succeeds, and its bookkeeping is right. -/
def StepRight (e : ℕ × Operation) : Prop :=
  ∃ notified s', s.step e = .ok (notified, s') ∧ (s.wait e.1).Right e.2 notified s'

/-- The operation meets no foreign entry. -/
def Undisturbed : Operation → Prop
  | .register sendCurrentValueAfter c => sendCurrentValueAfter = true → c.subscriber ∉ s.registered
  | .remove client event => ∀ e ∈ s.debounceClients, e.client = client → e.event = event.event →
      ∀ e' ∈ s.debounceClients, e'.deadline = e.deadline → e'.subscriber = (client, event)
  | .update clients event => ∀ e ∈ s.debounceClients, e.event = event.event →
      e.callback.event ≠ event → (e.hasUpdate = true ↔ e.client ∉ clients)
  | .timer handler isSubscribed _ => ∀ c, s.due handler = some c → isSubscribed = true →
      ∃ e ∈ s.debounceClients.head?, e.subscriber = c.subscriber

/-! ### What the operations do to the container -/

variable {s} {op : Operation}

@[simp] theorem debounceClients_setTimerForBegin :
    s.setTimerForBegin.debounceClients = s.debounceClients := by
  unfold setTimerForBegin
  split <;> rfl

@[simp] theorem registered_setTimerForBegin : s.setTimerForBegin.registered = s.registered := by
  unfold setTimerForBegin
  split <;> rfl

/-- The registration of a subscriber emplaces an entry. -/
theorem registerDebounce_true (c : Callback) : ∃ elem : Entry, elem.subscriber = c.subscriber ∧
    elem.event = elem.callback.event.event ∧ elem.hasUpdate = false ∧
    (s.registerDebounce true c).debounceClients = emplace elem s.debounceClients ∧
    (s.registerDebounce true c).registered = insert c.subscriber s.registered := by
  refine ⟨⟨s.clock + c.interval * millisecond, c.client, false, c, c.event.event⟩, rfl, rfl, rfl,
    ?_⟩
  simp only [registerDebounce, if_true]
  split_ifs <;> exact ⟨rfl, rfl⟩

theorem subscriber_mark (clients : List UInt16) (event : UInt16) (e : Entry) :
    (mark clients event e).subscriber = e.subscriber ∧
      (mark clients event e).callback = e.callback ∧ (mark clients event e).event = e.event := by
  unfold mark
  split_ifs <;> exact ⟨rfl, rfl, rfl⟩

variable {event : EventObject} {clients : List UInt16} {rest : List Entry} {client : UInt16}
  {c : Callback} {first : Entry}

/-- An entry is as before iff the update is about another event id, or the flag is right already. -/
theorem mark_eq_self_iff {event : UInt16} :
    mark clients event e = e ↔ (e.event = event → (e.hasUpdate = true ↔ e.client ∉ clients)) := by
  obtain ⟨deadline, client, hasUpdate, callback, id⟩ := e
  unfold mark
  by_cases h : event = id
  · subst h
    by_cases hmem : client ∈ clients
    · simp [hmem, eq_comm]
    · simp [hmem, eq_comm]
  · simp [h, Ne.symm h]

theorem mem_removedDeadlines {event : UInt16} {deadline : ℤ} :
    deadline ∈ s.removedDeadlines client event ↔
      ∃ e ∈ s.debounceClients, (e.client = client ∧ e.event = event) ∧ e.deadline = deadline := by
  simp [removedDeadlines, and_assoc]

/-- An entry is removed by the deadline of one that is asked for. Source: `remove_debounce` -/
theorem mem_removeDebounce {x : Entry} :
    x ∈ (s.removeDebounce client event).debounceClients ↔ x ∈ s.debounceClients ∧
      ∀ e ∈ s.debounceClients, e.client = client → e.event = event.event →
        x.deadline ≠ e.deadline := by
  rw [removeDebounce, mem_filter, decide_eq_true_eq, mem_removedDeadlines]
  refine and_congr_right fun _ => ⟨fun h e he hclient hid heq => ?_, ?_⟩
  · exact h ⟨e, he, ⟨hclient, hid⟩, heq.symm⟩
  · rintro h ⟨e, he, ⟨hclient, hid⟩, heq⟩
    exact h e he hclient hid heq.symm

/-- The container is exact, and the entries have the ids of their events. -/
structure Kept (s : State) : Prop where
  exact : s.Exact
  event : ∀ e ∈ s.debounceClients, e.event = e.callback.event.event

/-- Time passes. -/
theorem Kept.wait (h : s.Kept) (elapsed : ℕ) : (s.wait elapsed).Kept :=
  ⟨⟨h.exact.nodup, h.exact.mem⟩, h.event⟩

/-- There is one entry of a subscriber. -/
theorem Exact.eq_of_subscriber (h : s.Exact) {e' : Entry} (he : e ∈ s.debounceClients)
    (he' : e' ∈ s.debounceClients) (heq : e.subscriber = e'.subscriber) : e = e' :=
  inj_on_of_nodup_map h.nodup he he' heq

/-- The subscriber of the first entry has no other one. -/
theorem Exact.subscriber_ne (h : s.Exact)
    (hclients : s.debounceClients = first :: rest) : ∀ e ∈ rest, e.subscriber ≠ first.subscriber := by
  intro e he heq
  have hnodup := h.nodup
  rw [hclients, map_cons, nodup_cons] at hnodup
  exact hnodup.1 (mem_map.mpr ⟨e, he, heq⟩)

/-- The operation is right, and the entries have the ids of their events. -/
def RightKept (op : Operation) (notified : Option Subscriber) (s s' : State) : Prop :=
  s.Right op notified s' ∧ s'.Kept

/-! ### Registration -/

/-- A subscriber that has no entry gets one. Source: `register_debounce` -/
theorem Kept.register (h : s.Kept) {sendCurrentValueAfter : Bool}
    (hc : s.Undisturbed (.register sendCurrentValueAfter c)) :
    RightKept (.register sendCurrentValueAfter c) none s
      (s.registerDebounce sendCurrentValueAfter c) := by
  cases sendCurrentValueAfter with
  | false => exact ⟨⟨h.exact, fun _ _ => Iff.rfl, fun _ _ hk => hk, fun _ hk => nomatch hk⟩, h⟩
  | true =>
      obtain ⟨elem, hsubscriber, hevent, hflag, hclients, hregistered⟩ :=
        registerDebounce_true (s := s) c
      have hfresh := mt (h.exact.mem c.subscriber).mp (hc rfl)
      have hexact : (s.registerDebounce true c).Exact := by
        constructor
        · rw [hclients, ((emplace_perm elem _).map _).nodup_iff, map_cons, nodup_cons,
            hsubscriber]
          exact ⟨hfresh, h.exact.nodup⟩
        · intro k
          rw [hclients, ((emplace_perm elem _).map _).mem_iff, map_cons, mem_cons,
            hsubscriber, h.exact.mem, hregistered, Finset.mem_insert]
      refine ⟨⟨hexact, ?_, ?_, fun _ hk => nomatch hk⟩, hexact, ?_⟩
      · intro e habout
        rw [hclients, mem_emplace, or_iff_right]
        rintro rfl
        exact habout hsubscriber
      · rintro _ k ⟨e, he, hk, hupdate⟩
        rw [hclients, mem_emplace] at he
        rcases he with rfl | he
        · exact absurd hupdate (by simp [hflag])
        · exact ⟨e, he, hk, hupdate⟩
      · intro e he
        rw [hclients, mem_emplace] at he
        rcases he with rfl | he
        · exact hevent
        · exact h.event e he

/-- Conversely, nobody registers twice. -/
theorem Kept.of_register (h : s.Kept) {sendCurrentValueAfter : Bool}
    (hright : (s.registerDebounce sendCurrentValueAfter c).Exact) :
    s.Undisturbed (.register sendCurrentValueAfter c) := by
  rintro rfl hregistered
  obtain ⟨elem, hsubscriber, _, _, hclients, _⟩ := registerDebounce_true (s := s) c
  have hnodup := hright.nodup
  rw [hclients, ((emplace_perm elem _).map _).nodup_iff, map_cons, nodup_cons,
    hsubscriber] at hnodup
  exact hnodup.1 ((h.exact.mem _).mpr hregistered)

/-! ### Removal -/

/-- The entries of a client and an event go, and no other. Source: `remove_debounce` -/
theorem Kept.remove (h : s.Kept) (hc : s.Undisturbed (.remove client event)) :
    RightKept (.remove client event) none s (s.removeDebounce client event) := by
  -- what is erased is the entry of the subscriber
  have hmem : ∀ x, x ∈ (s.removeDebounce client event).debounceClients ↔
      x ∈ s.debounceClients ∧ x.subscriber ≠ (client, event) := by
    intro x
    rw [mem_removeDebounce]
    refine and_congr_right fun hx => ⟨fun hkept heq => ?_, fun hne e he hclient hid hdeadline => ?_⟩
    · obtain ⟨rfl, rfl⟩ := Prod.mk.inj heq
      exact hkept x hx rfl (h.event x hx) rfl
    · exact hne (hc e he hclient hid x hx hdeadline)
  have hexact : (s.removeDebounce client event).Exact := by
    constructor
    · exact h.exact.nodup.sublist (filter_sublist.map _)
    · intro k
      have hregistered :
          (s.removeDebounce client event).registered = s.registered.erase (client, event) := rfl
      rw [hregistered, Finset.mem_erase, ← h.exact.mem]
      simp only [mem_map, hmem]
      constructor
      · rintro ⟨e, ⟨he, hne⟩, rfl⟩
        exact ⟨hne, e, he, rfl⟩
      · rintro ⟨hne, e, he, rfl⟩
        exact ⟨e, ⟨he, hne⟩, rfl⟩
  refine ⟨⟨hexact, ?_, ?_, fun _ hk => nomatch hk⟩, hexact, ?_⟩
  · intro e habout
    exact (hmem e).trans (and_iff_left habout)
  · rintro _ k ⟨e, he, hk, hupdate⟩
    exact ⟨e, ((hmem e).mp he).1, hk, hupdate⟩
  · intro e he
    exact h.event e ((hmem e).mp he).1

/-- Conversely, no foreign entry has the deadline. -/
theorem of_remove (hforeign : ∀ e : Entry, ¬ s.About (.remove client event) e.subscriber →
      (e ∈ (s.removeDebounce client event).debounceClients ↔ e ∈ s.debounceClients)) :
    s.Undisturbed (.remove client event) := by
  intro e he hclient hid e' he' hdeadline
  by_contra hne
  exact (mem_removeDebounce.mp ((hforeign e' hne).mpr he')).2 e he hclient hid hdeadline

/-! ### Updates -/

/-- The flags of the clients are set, and no other. Source: `update_debounce_clients` -/
theorem Kept.update (h : s.Kept) (hc : s.Undisturbed (.update clients event)) :
    RightKept (.update clients event) none s (s.updateDebounceClients clients event) := by
  have hsubscribers : (s.updateDebounceClients clients event).debounceClients.map Entry.subscriber =
      s.debounceClients.map Entry.subscriber := by
    rw [updateDebounceClients, map_map]
    exact map_congr_left fun e _ => (subscriber_mark clients event.event e).1
  have hexact : (s.updateDebounceClients clients event).Exact :=
    ⟨hsubscribers ▸ h.exact.nodup, fun k => hsubscribers ▸ h.exact.mem k⟩
  refine ⟨⟨hexact, ?_, fun hop => absurd rfl (hop clients event), fun _ hk => nomatch hk⟩, hexact, ?_⟩
  · intro e habout
    have hsame : ∀ y ∈ s.debounceClients, y.callback.event ≠ event →
        mark clients event.event y = y :=
      fun y hy hne => mark_eq_self_iff.mpr fun hid => hc y hy hid hne
    constructor
    · intro he
      obtain ⟨y, hy, rfl⟩ := mem_map.mp he
      rw [About, Entry.subscriber, (subscriber_mark clients event.event y).2.1] at habout
      rwa [hsame y hy habout]
    · intro he
      exact mem_map.mpr ⟨e, he, hsame e he habout⟩
  · intro e he
    obtain ⟨y, hy, rfl⟩ := mem_map.mp he
    obtain ⟨_, hcallback, hid⟩ := subscriber_mark clients event.event y
    rw [hcallback, hid]
    exact h.event y hy

/-- Conversely, no foreign flag is changed. -/
theorem Kept.of_update (h : s.Kept)
    (hforeign : ∀ e : Entry, ¬ s.About (.update clients event) e.subscriber →
      (e ∈ (s.updateDebounceClients clients event).debounceClients ↔ e ∈ s.debounceClients)) :
    s.Undisturbed (.update clients event) := by
  intro e he hid hne
  obtain ⟨y, hy, hmark⟩ := mem_map.mp ((hforeign e hne).mpr he)
  have hsubscriber : y.subscriber = e.subscriber :=
    (subscriber_mark clients event.event y).1.symm.trans (congrArg Entry.subscriber hmark)
  obtain rfl := h.exact.eq_of_subscriber hy he hsubscriber
  exact mark_eq_self_iff.mp hmark hid

/-! ### Callbacks -/

/-- A callback of a subscriber replaces the first entry, whosever it is. -/
theorem exists_callback (c : Callback) (last : Option ℤ)
    (hclients : s.debounceClients = first :: rest) :
    ∃ elem : Entry, ∃ notify s', s.debounceTimeoutUpdateCbk c true last = .ok (notify, s') ∧
      (elem.subscriber = c.subscriber ∧ elem.callback = c ∧ elem.event = first.event ∧
        elem.hasUpdate = (first.hasUpdate && !notify)) ∧
      (notify = true → isElapsed s.clock c.interval last = true ∧ first.hasUpdate = true) ∧
      s'.debounceClients = emplace elem rest ∧ s'.registered = s.registered := by
  simp only [debounceTimeoutUpdateCbk, if_true, hclients]
  refine ⟨_, _, _, rfl, ⟨?_, ?_, ?_, ?_⟩, ?_, debounceClients_setTimerForBegin,
    registered_setTimerForBegin⟩
  · rfl
  · rfl
  · rfl
  · rfl
  · intro hnotify
    simp only [Bool.and_eq_true] at hnotify
    exact ⟨hnotify.1.1, hnotify.2⟩

theorem le_of_isElapsed {now interval : ℤ} {lastForwarded : Option ℤ}
    (h : isElapsed now interval lastForwarded = true) :
    ∀ last ∈ lastForwarded, interval ≤ (now - last).tdiv millisecond := by
  rintro last rfl
  simpa [isElapsed] using h

/-- A callback whose own entry is the first one is right. -/
theorem Kept.callback (h : s.Kept) {handler : ℕ} (last : Option ℤ) (hdue : s.due handler = some c)
    (hclients : s.debounceClients = first :: rest) (hown : first.subscriber = c.subscriber) :
    ∃ notify s', { s with handlers := s.handlers.eraseIdx handler }.debounceTimeoutUpdateCbk c true
      last = .ok (notify, s') ∧ RightKept (.timer handler true last)
        (if notify then some c.subscriber else none) s s' := by
  obtain ⟨elem, notify, s', hresult, ⟨hsubscriber, hcallback, hevent, hflag⟩, hnotify, hclients',
    hregistered⟩ := exists_callback (s := { s with handlers := s.handlers.eraseIdx handler }) c last
      hclients
  have hsame : elem.subscriber = first.subscriber := hsubscriber.trans hown.symm
  have hperm : (s'.debounceClients.map Entry.subscriber).Perm
      (s.debounceClients.map Entry.subscriber) := by
    rw [hclients', hclients, map_cons, ← hsame, ← map_cons]
    exact (emplace_perm elem rest).map _
  have hexact : s'.Exact := by
    constructor
    · exact hperm.nodup_iff.mpr h.exact.nodup
    · intro k
      rw [hperm.mem_iff, h.exact.mem, hregistered]
  have hfirst : first ∈ s.debounceClients := hclients ▸ mem_cons_self
  refine ⟨notify, s', hresult, ⟨hexact, ?_, ?_, ?_⟩, hexact, ?_⟩
  · intro e habout
    have hne : e.subscriber ≠ c.subscriber := fun heq => habout ⟨c, hdue, heq⟩
    rw [hclients', hclients, mem_emplace, mem_cons, or_iff_right, or_iff_right]
    · exact fun heq => hne (heq ▸ hown)
    · exact fun heq => hne (heq ▸ hsubscriber)
  · rintro _ k ⟨e, he, hk, hupdate⟩
    rw [hclients', mem_emplace] at he
    rcases he with rfl | he
    · rw [hflag, Bool.and_eq_true] at hupdate
      exact ⟨first, hfirst, hsame.symm.trans hk, hupdate.1⟩
    · exact ⟨e, hclients ▸ mem_cons_of_mem first he, hk, hupdate⟩
  · intro k hk
    cases notify with
    | false => exact nomatch hk
    | true =>
        obtain rfl : c.subscriber = k := Option.some.inj hk
        obtain ⟨helapsed, hpending⟩ := hnotify rfl
        refine ⟨⟨first, hfirst, hown, hpending⟩, ⟨c, hdue, le_of_isElapsed helapsed⟩, ?_⟩
        rintro ⟨e, he, hk, hupdate⟩
        rw [hclients', mem_emplace] at he
        rcases he with rfl | he
        · exact absurd hupdate (by simp [hflag])
        · exact h.exact.subscriber_ne hclients e he (hk.trans hown.symm)
  · intro e he
    rw [hclients', mem_emplace] at he
    rcases he with rfl | he
    · rw [hcallback, hevent, h.event first hfirst]
      exact congrArg EventObject.event (Prod.mk.inj hown).2
    · exact h.event e (hclients ▸ mem_cons_of_mem first he)

/-- An operation that leaves the container alone. -/
theorem Kept.of_eq (h : s.Kept) {s' : State} (hclients : s'.debounceClients = s.debounceClients)
    (hregistered : s'.registered = s.registered) : RightKept op none s s' := by
  have hexact : s'.Exact := by
    refine ⟨hclients ▸ h.exact.nodup, ?_⟩
    rw [hclients, hregistered]
    exact h.exact.mem
  refine ⟨⟨hexact, fun e _ => by rw [hclients], ?_, fun _ hk => nomatch hk⟩, hexact, ?_⟩
  · rintro _ k ⟨e, he, hk⟩
    exact ⟨e, hclients ▸ he, hk⟩
  · rw [hclients]
    exact h.event

/-! ### Steps and runs -/

/-- An operation that meets no foreign entry succeeds and is right. -/
theorem Kept.perform (h : s.Kept) (hc : s.Undisturbed op) :
    ∃ notified s', s.perform op = .ok (notified, s') ∧ RightKept op notified s s' := by
  cases op with
  | register sendCurrentValueAfter c => exact ⟨none, _, rfl, h.register hc⟩
  | remove client event => exact ⟨none, _, rfl, h.remove hc⟩
  | update clients event => exact ⟨none, _, rfl, h.update hc⟩
  | timer handler isSubscribed last =>
      rcases hdue : s.due handler with _ | c
      · refine ⟨none, s, ?_, h.of_eq rfl rfl⟩
        simp only [State.perform, hdue]
      · cases isSubscribed with
        | false =>
            refine ⟨none, { s with handlers := s.handlers.eraseIdx handler }.setTimerForBegin, ?_,
              h.of_eq debounceClients_setTimerForBegin registered_setTimerForBegin⟩
            simp only [State.perform, hdue]
            rfl
        | true =>
            obtain ⟨first, hfirst, hown⟩ := hc c hdue rfl
            obtain ⟨rest, hclients⟩ := List.head?_eq_some_iff.mp hfirst
            obtain ⟨notify, s', hresult, hright⟩ := h.callback last hdue hclients hown
            refine ⟨_, s', ?_, hright⟩
            simp only [State.perform, hdue, hresult]

/-- An operation that succeeds and is right meets no foreign entry. -/
theorem Kept.undisturbed (h : s.Kept) {notified : Option Subscriber} {s' : State}
    (hperform : s.perform op = .ok (notified, s')) (hright : s.Right op notified s') :
    s.Undisturbed op := by
  cases op with
  | register sendCurrentValueAfter c =>
      cases hperform
      exact h.of_register hright.exact
  | remove client event =>
      cases hperform
      exact of_remove hright.foreign
  | update clients event =>
      cases hperform
      exact h.of_update hright.foreign
  | timer handler isSubscribed last =>
      rintro c hdue rfl
      rcases hclients : s.debounceClients with _ | ⟨first, rest⟩
      · simp [State.perform, hdue, debounceTimeoutUpdateCbk, hclients] at hperform
      · refine ⟨first, rfl, ?_⟩
        by_contra hforeign
        obtain ⟨elem, notify, s₁, hresult, ⟨hsubscriber, _⟩, _, hclients', _⟩ :=
          exists_callback (s := { s with handlers := s.handlers.eraseIdx handler }) c last hclients
        have hs' : s₁ = s' := by
          simp only [State.perform, hdue, hresult] at hperform
          exact (Prod.mk.inj (Except.ok.inj hperform)).2
        -- the first entry is gone, although the callback is not about it
        have hmem : first ∈ s'.debounceClients := by
          refine (hright.foreign first ?_).mpr (hclients ▸ mem_cons_self)
          rintro ⟨c', hdue', heq⟩
          exact hforeign (heq.trans (congrArg _ (Option.some.inj (hdue'.symm.trans hdue))))
        rw [← hs', hclients', mem_emplace] at hmem
        rcases hmem with rfl | hmem
        · exact hforeign hsubscriber
        · exact h.exact.subscriber_ne hclients first hmem rfl

/-- Nobody is registered. -/
def start : State := ⟨0, [], [], ∅⟩

/-- **Debounce bookkeeping.** Along a run from the start each step is right iff each step meets no
foreign entry. -/
theorem debounce_bookkeeping_iff (events : List (ℕ × Operation)) :
    AllSteps step StepRight start events ↔
      AllSteps step (fun s e => (s.wait e.1).Undisturbed e.2) start events := by
  have hstart : start.Kept := ⟨⟨nodup_nil, by simp [start]⟩, by simp [start]⟩
  refine AllSteps.iff_of_invariant Kept ?_ ?_ hstart
  · rintro s ⟨elapsed, op⟩ notified s' h hc hstep
    obtain ⟨notified₁, s₁, hperform, hright⟩ := (h.wait elapsed).perform hc
    obtain ⟨rfl, rfl⟩ := ok_unique hstep hperform
    exact hright.2
  · rintro s ⟨elapsed, op⟩ h
    constructor
    · rintro ⟨notified, s', hperform, hright⟩
      exact (h.wait elapsed).undisturbed hperform hright
    · intro hc
      obtain ⟨notified, s', hperform, hright⟩ := (h.wait elapsed).perform hc
      exact ⟨notified, s', hperform, hright.1⟩

/-- The container is exact behind the last step of a run that is right. -/
theorem exact_of_run {events : List (ℕ × Operation)} {e : ℕ × Operation}
    {os : List (Option Subscriber)} {t : State} (hall : AllSteps step StepRight s (events ++ [e]))
    (hrun : run step s (events ++ [e]) = .ok (os, t)) : t.Exact := by
  induction events generalizing s os with
  | nil =>
      obtain ⟨o, s', os', hstep, hnil, -⟩ := run_cons_eq_ok.mp hrun
      cases hnil
      obtain ⟨notified, s₁, hstep', hright⟩ := hall.1
      obtain ⟨rfl, rfl⟩ := ok_unique hstep hstep'
      exact hright.exact
  | cons e' events ih =>
      obtain ⟨o, s', os', hstep, hrun', -⟩ := run_cons_eq_ok.mp hrun
      exact ih (hall.2 o s' hstep) hrun'

/-- A client is registered for events of two services with the same id. Removing it for one of them
removes the entry for the other one as well. -/
theorem other_service_removed :
    let one : EventObject := ⟨0x1111, 1, 0x8001⟩
    let other : EventObject := ⟨0x2222, 1, 0x8001⟩
    let registrations : List (ℕ × Operation) :=
      [(0, .register true ⟨one, 7, 100⟩), (0, .register true ⟨other, 7, 200⟩)]
    (run step start (registrations ++ [(0, .remove 7 one)])).map (fun r => r.2) =
      .ok ⟨0, [], [(100000000, ⟨one, 7, 100⟩)], {(7, other)}⟩ ∧
    ¬ AllSteps step StepRight start (registrations ++ [(0, .remove 7 one)]) := by
  intro one other registrations
  have hrun : (run step start (registrations ++ [(0, .remove 7 one)])).map (fun r => r.2) =
      .ok ⟨0, [], [(100000000, ⟨one, 7, 100⟩)], {(7, other)}⟩ := by
    decide +kernel
  refine ⟨hrun, fun hall => ?_⟩
  rcases hresult : run step start (registrations ++ [(0, .remove 7 one)]) with _ | ⟨os, t⟩
  · rw [hresult] at hrun
    exact nomatch hrun
  · rw [hresult] at hrun
    obtain rfl := Except.ok.inj hrun
    have hexact := exact_of_run hall hresult
    exact absurd ((hexact.mem (7, other)).mpr (Finset.mem_singleton_self _)) not_mem_nil

end State

end SomeipTunnel.Routing.Debounce
