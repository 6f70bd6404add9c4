import SomeipTunnel.Tp.Split

/-!
# Trains

Endpoints do not send a message at once: it boards a *train*, which leaves with all its passengers
in one datagram. A configured debounce and maximum retention time per service and method decide
whether a message enters the current train or makes it depart. A train that must depart is filed
under its departure time; the dispatch timer is set for the train that leaves next.

`client_endpoint_impl` and `server_endpoint_impl` have the same steps 4 to 9 for this, on trains
whose buffers are different things here: `Train` and `Depot` leave the type of the buffer open.

* `Train.admits`: the seven-step decision, with `Train.admits_eq_some` for what it grants.
* `Depot.board`, `Depot.scheduleTrain`, `Depot.next`: boarding, filing, and the choice of `flush`.
* `exists_append_file`: a train is filed behind those that leave no later, in front of the others.
-/

namespace SomeipTunnel.Endpoint

open List
open Tp (readUint16Be)

/-! ### Messages and times -/

/-- A service and a method. -/
abbrev Identifier := ℕ × ℕ

/-- A message that is handed to `send`: at least service and method are there, and its size is a
`uint32_t`. -/
structure Message where
  data : List UInt8
  header : 4 ≤ data.length
  size_lt : data.length < 2 ^ 32
deriving DecidableEq

namespace Message

/-- Source: `read_uint16_be(&_data[VSOMEIP_SERVICE_POS_MIN])` -/
def service (m : Message) : ℕ := readUint16Be m.data 0

/-- Source: `read_uint16_be(&_data[VSOMEIP_METHOD_POS_MIN])` -/
def method (m : Message) : ℕ := readUint16Be m.data 2

def identifier (m : Message) : Identifier := (m.service, m.method)

theorem data_ne_nil (m : Message) : m.data ≠ [] := by
  have := m.header
  exact ne_nil_of_length_pos (by omega)

end Message

/-- Source: `buffer.hpp`, `DEFAULT_NANOSECONDS_MAX`, `std::chrono::nanoseconds::max()` -/
def defaultNanosecondsMax : ℕ := 2 ^ 63 - 1

/-- The configured debounce and maximum retention time, in nanoseconds. -/
structure Timing where
  debouncing : ℕ
  retention : ℕ
  debouncing_le : debouncing ≤ defaultNanosecondsMax
  retention_le : retention ≤ defaultNanosecondsMax

/-- What the endpoint is configured with. `segmentation` is the maximum segment length and the
separation time where SOME/IP-TP is enabled, which only UDP endpoints support. -/
structure Config where
  maxMessageSize : ℕ
  queueLimit : ℕ
  timing : Identifier → Timing
  segmentation : Identifier → Option (ℕ × ℕ)
  udp : ∀ id, segmentation id ≠ none → maxMessageSize = 1416

/-- Source: `check_message_size`; `MESSAGE_SIZE_UNLIMITED` is the largest `uint32_t` -/
def Config.checkMessageSize (cfg : Config) (size : ℕ) : Bool :=
  ¬ (cfg.maxMessageSize ≠ 0xFFFFFFFF ∧ size > cfg.maxMessageSize)

theorem Config.checkMessageSize_iff (cfg : Config) (m : Message) :
    cfg.checkMessageSize m.data.length = true ↔ m.data.length ≤ cfg.maxMessageSize := by
  have hlt := m.size_lt
  simp only [checkMessageSize, decide_eq_true_eq]
  omega

/-! ### Trains -/

/-- Source: `buffer.hpp`, `train` -/
structure Train (β : Type*) where
  buffer : β
  passengers : Finset Identifier
  minimalDebounceTime : ℕ
  minimalMaxRetentionTime : ℕ
  departure : ℕ

variable {id : Identifier} {timing : Timing} {bufferSize size maxMessageSize now : ℕ}

namespace Train

variable {β : Type*}

/-- Source: `train::train`, `train::reset`; the departure is six hours ahead -/
def new (buffer : β) (now : ℕ) : Train β :=
  ⟨buffer, ∅, defaultNanosecondsMax, defaultNanosecondsMax, now + 6 * 3600 * 10 ^ 9⟩

/-- The departure of the train with the passenger, or nothing if the train must depart before.
Source: `client_endpoint_impl::send`, `server_endpoint_impl::send_intern`, STEP 4 to 7 -/
def admits (t : Train β) (bufferSize size maxMessageSize now : ℕ) (timing : Timing)
    (id : Identifier) : Option ℕ :=
  if t.passengers = ∅ then some (now + timing.retention)
  else if id ∈ t.passengers then none
  else if bufferSize + size > maxMessageSize then none
  else if timing.debouncing > t.minimalMaxRetentionTime then none
  else if now + timing.debouncing > t.departure then none
  else if timing.retention < t.minimalDebounceTime then none
  else if now + timing.retention < t.departure then some (now + timing.retention)
  else some t.departure

/-- Source: STEP 9.1 and 9.2, and `send_segments` -/
def tighten (t : Train β) (timing : Timing) : Train β :=
  { t with
    minimalDebounceTime := min t.minimalDebounceTime timing.debouncing
    minimalMaxRetentionTime := min t.minimalMaxRetentionTime timing.retention }

/-- Source: STEP 9, without the buffer -/
def enter (t : Train β) (timing : Timing) (id : Identifier) : Train β :=
  { t.tighten timing with passengers := insert id t.passengers }

/-- The departure that `schedule_train` gives the train. -/
def due (t : Train β) (lastDeparture : Option ℕ) : ℕ :=
  match lastDeparture with
  | none => t.departure
  | some last =>
      if last + t.minimalDebounceTime > t.departure then last + t.minimalDebounceTime
      else t.departure

/-- **What `admits` grants**: an empty train leaves when the passenger must, and otherwise the
passenger is new, fits, and the train leaves no later than before and than the passenger must. -/
theorem admits_eq_some {t : Train β} {departure : ℕ}
    (h : t.admits bufferSize size maxMessageSize now timing id = some departure) :
    (t.passengers = ∅ ∧ departure = now + timing.retention) ∨
      (t.passengers ≠ ∅ ∧ id ∉ t.passengers ∧ bufferSize + size ≤ maxMessageSize ∧
        departure = min t.departure (now + timing.retention)) := by
  unfold admits at h
  by_cases hempty : t.passengers = ∅
  · rw [if_pos hempty] at h
    exact .inl ⟨hempty, (Option.some.inj h).symm⟩
  · rw [if_neg hempty] at h
    split_ifs at h with hid hsize hretention hdebounce hminimal hearlier
    · obtain rfl := Option.some.inj h
      exact .inr ⟨hempty, hid, by omega, by omega⟩
    · obtain rfl := Option.some.inj h
      exact .inr ⟨hempty, hid, by omega, by omega⟩

theorem departure_le_due (t : Train β) (lastDeparture : Option ℕ) :
    t.departure ≤ t.due lastDeparture := by
  unfold due
  rcases lastDeparture with _ | last
  · exact le_rfl
  · dsimp only
    split_ifs <;> omega

end Train

/-! ### Depots -/

/-- The current train, the trains that wait for their departure, the time for which the dispatch
timer is set, and the last departure.
Source: `train_`, `dispatched_trains_`, `dispatch_timer_`, `last_departure_`; the map from times to
queues of trains is the list of its trains in the order of the map -/
structure Depot (β : Type*) where
  train : Train β
  dispatched : List (Train β)
  dispatchTimer : Option ℕ
  lastDeparture : Option ℕ

/-- Source: `dispatched_trains_[train_->departure_].push_back(train_)` -/
def file {β : Type*} (t : Train β) (dispatched : List (Train β)) : List (Train β) :=
  dispatched.orderedInsert (fun a b => a.departure < b.departure) t

namespace Depot

variable {β : Type*}

/-- Source: the constructors of the endpoint and of `endpoint_data_type` -/
def new (buffer : β) (now : ℕ) : Depot β := ⟨.new buffer now, [], none, none⟩

/-- Source: `schedule_train` -/
def scheduleTrain (d : Depot β) : Depot β :=
  { d with
    dispatched := file { d.train with departure := d.train.due d.lastDeparture } d.dispatched }

/-- The current train is scheduled and a new one takes its place. -/
def depart (d : Depot β) (fresh : β) (now : ℕ) (timing : Timing) : Depot β :=
  { d.scheduleTrain with train := { Train.new fresh now with departure := now + timing.retention } }

/-- Source: STEP 4 to 9, without the buffer; `fresh` is the buffer of a new train -/
def board (d : Depot β) (fresh : β) (bufferSize size maxMessageSize now : ℕ) (timing : Timing)
    (id : Identifier) : Depot β :=
  match d.train.admits bufferSize size maxMessageSize now timing id with
  | some departure => { d with train := ({ d.train with departure := departure }).enter timing id }
  | none =>
      let d' := d.depart fresh now timing
      { d' with train := d'.train.enter timing id }

theorem board_of_admits {d : Depot β} {fresh : β} {departure : ℕ}
    (h : d.train.admits bufferSize size maxMessageSize now timing id = some departure) :
    d.board fresh bufferSize size maxMessageSize now timing id =
      { d with train := ({ d.train with departure := departure }).enter timing id } := by
  simp only [board, h]

theorem board_of_not_admits {d : Depot β} {fresh : β}
    (h : d.train.admits bufferSize size maxMessageSize now timing id = none) :
    d.board fresh bufferSize size maxMessageSize now timing id =
      { d.depart fresh now timing with
        train := (d.depart fresh now timing).train.enter timing id } := by
  simp only [board, h]

/-- The train that `flush` takes, whether it is the current one, and the depot without it if it was
dispatched. -/
def next (d : Depot β) : Train β × Bool × Depot β :=
  match d.dispatched with
  | [] => (d.train, true, d)
  | t :: rest =>
      if t.departure ≤ d.train.departure then (t, false, { d with dispatched := rest })
      else (d.train, true, d)

/-- Source: `start_dispatch_timer` -/
def startDispatchTimer (d : Depot β) (now : ℕ) : Depot β :=
  let itsTrain := match d.dispatched with
    | [] => d.train
    | t :: _ => if t.departure < d.train.departure then t else d.train
  { d with dispatchTimer := some (if itsTrain.departure > now then itsTrain.departure else now) }

/-- The train that is put into the queue, and the depot without it; a train whose buffer is empty is
not put into the queue.
Source: `flush`, without the queue -/
def flush (d : Depot β) (isEmpty : β → Bool) (fresh : β) (now : ℕ) :
    Option (Train β) × Depot β :=
  let (itsTrain, isCurrentTrain, d) := d.next
  let hasQueued := !isEmpty itsTrain.buffer
  let d := if hasQueued ∧ isCurrentTrain then { d with train := .new fresh now } else d
  let d := if ¬ isCurrentTrain ∨ d.dispatched ≠ [] then d.startDispatchTimer now else d
  (if hasQueued then some itsTrain else none, d)

@[simp] theorem startDispatchTimer_train (d : Depot β) (now : ℕ) :
    (d.startDispatchTimer now).train = d.train := rfl

@[simp] theorem startDispatchTimer_dispatched (d : Depot β) (now : ℕ) :
    (d.startDispatchTimer now).dispatched = d.dispatched := rfl

/-- What `flush` does. -/
inductive Flushes (d : Depot β) (isEmpty : β → Bool) (fresh : β) (now : ℕ) (d' : Depot β) :
    Option (Train β) → Prop
  /-- The current train would leave before the others, but is empty. -/
  | idle (nobody : isEmpty d.train.buffer = true) (train : d'.train = d.train)
      (dispatched : d'.dispatched = d.dispatched) : Flushes d isEmpty fresh now d' none
  /-- The current train leaves before the others. -/
  | train (somebody : isEmpty d.train.buffer = false)
      (first : ∀ t ∈ d.dispatched.head?, d.train.departure < t.departure)
      (train : d'.train = .new fresh now) (dispatched : d'.dispatched = d.dispatched) :
      Flushes d isEmpty fresh now d' (some d.train)
  /-- A train that was filed leaves, -/
  | dispatched (t : Train β) (somebody : isEmpty t.buffer = false)
      (first : d.dispatched = t :: d'.dispatched) (train : d'.train = d.train) :
      Flushes d isEmpty fresh now d' (some t)
  /-- or is empty. -/
  | discards (t : Train β) (nobody : isEmpty t.buffer = true)
      (first : d.dispatched = t :: d'.dispatched) (train : d'.train = d.train) :
      Flushes d isEmpty fresh now d' none

theorem flushes (d : Depot β) (isEmpty : β → Bool) (fresh : β) (now : ℕ) :
    Flushes d isEmpty fresh now (d.flush isEmpty fresh now).2 (d.flush isEmpty fresh now).1 := by
  have hcurrent (hfirst : ∀ t ∈ d.dispatched.head?, d.train.departure < t.departure)
      (hnext : d.next = (d.train, true, d)) :
      Flushes d isEmpty fresh now (d.flush isEmpty fresh now).2
        (d.flush isEmpty fresh now).1 := by
    rcases hempty : isEmpty d.train.buffer with _ | _
    · simp only [flush, hnext, hempty, Bool.not_false, and_self, if_true]
      refine .train hempty hfirst ?_ ?_
      · split_ifs <;> rfl
      · split_ifs <;> rfl
    · simp only [flush, hnext, hempty, Bool.not_true, Bool.false_eq_true, false_and, if_false]
      refine .idle hempty ?_ ?_
      · split_ifs <;> rfl
      · split_ifs <;> rfl
  rcases hdispatched : d.dispatched with _ | ⟨t, rest⟩
  · exact hcurrent (by simp [hdispatched]) (by rw [next, hdispatched])
  · by_cases hle : t.departure ≤ d.train.departure
    · have hnext : d.next = (t, false, { d with dispatched := rest }) := by
        simp only [next, hdispatched, if_pos hle]
      rcases hempty : isEmpty t.buffer with _ | _
      · simp only [flush, hnext, hempty]
        exact .dispatched t hempty hdispatched rfl
      · simp only [flush, hnext, hempty]
        exact .discards t hempty hdispatched rfl
    · refine hcurrent ?_ ?_
      · simpa [hdispatched] using hle
      · simp only [next, hdispatched, if_neg hle]

end Depot

/-! ### Filing -/

section File

variable {β : Type*} {t : Train β} {dispatched : List (Train β)}

/-- The trains leave in the order of their times. -/
def Timetable (dispatched : List (Train β)) : Prop :=
  dispatched.Pairwise fun a b => a.departure ≤ b.departure

theorem file_perm (t : Train β) (dispatched : List (Train β)) :
    (file t dispatched).Perm (t :: dispatched) := perm_orderedInsert _ _ _

/-- A train is filed behind the trains that leave no later, in front of those that leave later. -/
theorem exists_append_file (h : Timetable dispatched) :
    ∃ before after, dispatched = before ++ after ∧ file t dispatched = before ++ t :: after ∧
      (∀ b ∈ before, b.departure ≤ t.departure) ∧ ∀ a ∈ after, t.departure < a.departure := by
  induction dispatched with
  | nil => exact ⟨[], [], rfl, rfl, by simp, by simp⟩
  | cons b dispatched ih =>
      obtain ⟨hb, hrest⟩ := pairwise_cons.mp h
      by_cases hlt : t.departure < b.departure
      · refine ⟨[], b :: dispatched, rfl, if_pos hlt, by simp, fun a ha => ?_⟩
        rcases mem_cons.mp ha with rfl | ha
        · exact hlt
        · exact hlt.trans_le (hb a ha)
      · obtain ⟨before, after, rfl, hfile, hbefore, hafter⟩ := ih hrest
        refine ⟨b :: before, after, rfl, ?_, ?_, hafter⟩
        · rw [cons_append, ← hfile]
          exact if_neg hlt
        · exact forall_mem_cons.mpr ⟨by omega, hbefore⟩

theorem Timetable.file (h : Timetable dispatched) (t : Train β) :
    Timetable (file t dispatched) := by
  obtain ⟨before, after, rfl, hfile, hbefore, hafter⟩ := exists_append_file (t := t) h
  obtain ⟨hb, ha, hcross⟩ := pairwise_append.mp h
  rw [hfile]
  refine pairwise_append.mpr ⟨hb, pairwise_cons.mpr ⟨fun a h => (hafter a h).le, ha⟩, ?_⟩
  intro b hb' a ha'
  rcases mem_cons.mp ha' with rfl | ha'
  · exact hbefore b hb'
  · exact hcross b hb' a ha'

end File

end SomeipTunnel.Endpoint
