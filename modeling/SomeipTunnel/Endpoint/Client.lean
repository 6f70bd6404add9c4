import SomeipTunnel.Endpoint.Train
import SomeipTunnel.Lib.Run

/-!
# The sending side of a client endpoint

`client_endpoint_impl` keeps a current train, trains that wait for their departure, and a queue of
buffers that are sent one after the other. A message boards a train (`send`), a train is put into
the queue when the dispatch timer expires (`flush`), a message that exceeds the maximum message size
is split and its segments are put into the queue at once (`sendSegments`), and a buffer leaves the
queue when it has been sent (`sendCbk`).

Three parts of the state are there for the statements only and are never read: the messages in the
buffer of a train with the times at which they were accepted (`Load.boarded`), the messages that
`send` has accepted (`accepted`) and those that have been put into the queue (`queued`).

`moves_of_step` lists what a step can do.
-/

namespace SomeipTunnel.Endpoint

open Tp (readUint16Be tpSplitMessage)

/-- The buffer of a train, and the messages that have been inserted into it. -/
structure Load where
  bytes : List UInt8
  boarded : List (Message × ℕ)
deriving DecidableEq

namespace Load

def empty : Load := ⟨[], []⟩

/-- Source: `buffer_->insert(buffer_->end(), _data, _data + _size)` -/
def add (l : Load) (m : Message) (now : ℕ) : Load :=
  ⟨l.bytes ++ m.data, l.boarded ++ [(m, now)]⟩

end Load

/-- Source: `client_endpoint_impl.hpp`, the members that sending uses -/
structure Client where
  depot : Depot Load
  queue : List (List UInt8 × ℕ)
  queueSize : ℕ
  isSending : Bool
  sendingBlocked : Bool
  accepted : List (Message × ℕ)
  queued : List Message

namespace Client

/-- Why a step of the model fails. -/
inductive Fault where
  /-- `tp_split_message` does not end. -/
  | hangs
deriving DecidableEq

def create (now : ℕ) : Client := ⟨.new .empty now, [], 0, false, false, [], []⟩

/-- Source: `check_queue_limit`; `QUEUE_SIZE_UNLIMITED` is the largest `uint32_t` -/
def checkQueueLimit (cfg : Config) (c : Client) (size : ℕ) : Bool :=
  ¬ (cfg.queueLimit ≠ 0xFFFFFFFF ∧ c.queueSize + size > cfg.queueLimit)

/-- Source: `send`, STEP 1 to 10 -/
def board (cfg : Config) (c : Client) (now : ℕ) (m : Message) : Client :=
  let d := c.depot.board .empty c.depot.train.buffer.bytes.length m.data.length cfg.maxMessageSize
    now (cfg.timing m.identifier) m.identifier
  let d := { d with train := { d.train with buffer := d.train.buffer.add m now } }
  { c with depot := d.startDispatchTimer now, accepted := c.accepted ++ [(m, now)] }

/-- Source: `send_segments`, the train -/
def passSegments (cfg : Config) (d : Depot Load) (now : ℕ) (id : Identifier) : Depot Load :=
  let d := { d with train := d.train.tighten (cfg.timing id) }
  if d.train.passengers = ∅ then d else d.depart .empty now (cfg.timing id)

/-- Source: `send_segments` -/
def sendSegments (cfg : Config) (c : Client) (now : ℕ) (segments : List (List UInt8))
    (separationTime : ℕ) : Client :=
  match segments with
  | [] => c
  | first :: _ =>
      { c with
        depot := passSegments cfg c.depot now (readUint16Be first 0, readUint16Be first 2)
        queue := c.queue ++ segments.map (·, separationTime)
        queueSize := c.queueSize + (segments.map List.length).sum
        isSending := true }

/-- Source: `segment_message` -/
def segmentMessage (cfg : Config) (c : Client) (now : ℕ) (m : Message) :
    Except Fault (Bool × Client) :=
  match cfg.segmentation m.identifier with
  | none => .ok (false, c)
  | some (maxSegmentLength, separationTime) =>
      match tpSplitMessage m.data maxSegmentLength with
      | none => .error .hangs
      | some segments =>
          .ok (true, { c.sendSegments cfg now segments separationTime with
            accepted := c.accepted ++ [(m, now)]
            queued := if segments = [] then c.queued else c.queued ++ [m] })

/-- Source: `client_endpoint_impl.cpp`, `send` -/
def send (cfg : Config) (c : Client) (now : ℕ) (m : Message) : Except Fault (Bool × Client) :=
  if c.sendingBlocked ∨ ¬ c.checkQueueLimit cfg m.data.length then .ok (false, c)
  else if ¬ cfg.checkMessageSize m.data.length then c.segmentMessage cfg now m
  else .ok (true, c.board cfg now m)

/-- Source: `queue_train` -/
def queueTrain (c : Client) (t : Train Load) : Client :=
  { c with
    queue := c.queue ++ [(t.buffer.bytes, 0)]
    queueSize := c.queueSize + t.buffer.bytes.length
    isSending := true
    queued := c.queued ++ t.buffer.boarded.map Prod.fst }

/-- Source: `flush` -/
def flush (c : Client) (now : ℕ) : Bool × Client :=
  match c.depot.flush (fun l => l.bytes.isEmpty) .empty now with
  | (none, d) => (false, { c with depot := d })
  | (some t, d) => (true, { c.queueTrain t with depot := d })

/-- The dispatch timer has expired.
Source: `flush_cbk` -/
def flushCbk (c : Client) (now : ℕ) : Bool × Client :=
  { c with depot := { c.depot with dispatchTimer := none } }.flush now

/-- Source: `send_cbk` without an error; `queue_size_` counts the bytes of the queue -/
def sendCbk (c : Client) (now : ℕ) : Client :=
  match c.queue with
  | [] => c
  | (buffer, _) :: rest =>
      { c with
        depot := { c.depot with lastDeparture := some now }
        queue := rest
        queueSize := c.queueSize - buffer.length
        isSending := rest ≠ [] }

/-- Source: `stop`, the part that concerns sending -/
def stop (c : Client) : Client :=
  { c with sendingBlocked := true, queue := [], queueSize := 0 }

/-- What happens to a client endpoint, with the time at which it happens. -/
inductive Input where
  | send (now : ℕ) (m : Message)
  | flushCbk (now : ℕ)
  | sendCbk (now : ℕ)
  | stop

def step (cfg : Config) (c : Client) : Input → Except Fault (Bool × Client)
  | .send now m => c.send cfg now m
  | .flushCbk now => .ok (c.flushCbk now)
  | .sendCbk now => .ok (true, c.sendCbk now)
  | .stop => .ok (true, c.stop)

/-! ### What a step can do -/

/-- `send` takes the message for a train. -/
def Boards (cfg : Config) (c : Client) (m : Message) : Prop :=
  ¬ c.sendingBlocked ∧ c.checkQueueLimit cfg m.data.length ∧
    cfg.checkMessageSize m.data.length
deriving Decidable

/-- `send` takes the message and splits it. -/
def Splits (cfg : Config) (c : Client) (m : Message) : Prop :=
  ¬ c.sendingBlocked ∧ c.checkQueueLimit cfg m.data.length ∧
    ¬ cfg.checkMessageSize m.data.length ∧ cfg.segmentation m.identifier ≠ none
deriving Decidable

/-- The dispatch timer has been set for a time that has come. -/
def OnTime (c : Client) : Input → Prop
  | .flushCbk now => ∃ time ∈ c.depot.dispatchTimer, time ≤ now
  | _ => True

instance decidableOnTime (c : Client) : (i : Input) → Decidable (c.OnTime i)
  | .flushCbk now => inferInstanceAs (Decidable (∃ time ∈ c.depot.dispatchTimer, time ≤ now))
  | .send _ _ | .sendCbk _ | .stop => .isTrue trivial

/-- A step as it concerns the trains and the messages that have been accepted and queued. -/
inductive Moves (cfg : Config) (c c' : Client) : Input → Prop
  /-- A message is refused, a buffer has been sent, an empty train is not put into the queue. -/
  | idle {i : Input} (train : c'.depot.train = c.depot.train)
      (dispatched : c'.depot.dispatched = c.depot.dispatched)
      (accepted : c'.accepted = c.accepted) (queued : c'.queued = c.queued) : Moves cfg c c' i
  | boards {now : ℕ} {m : Message} (boards : Boards cfg c m) (eq : c' = c.board cfg now m) :
      Moves cfg c c' (.send now m)
  | segments {now : ℕ} {m : Message} (id : Identifier) (splits : Splits cfg c m)
      (depot : c'.depot = passSegments cfg c.depot now id)
      (accepted : c'.accepted = c.accepted ++ [(m, now)]) (queued : c'.queued = c.queued ++ [m]) :
      Moves cfg c c' (.send now m)
  | flushes {now : ℕ} (t : Train Load)
      (flushes : c.depot.Flushes (fun l => l.bytes.isEmpty) .empty now c'.depot (some t))
      (accepted : c'.accepted = c.accepted)
      (queued : c'.queued = c.queued ++ t.buffer.boarded.map Prod.fst) :
      Moves cfg c c' (.flushCbk now)
  | discards {now : ℕ} (t : Train Load) (nobody : t.buffer.bytes = [])
      (first : c.depot.dispatched = t :: c'.depot.dispatched)
      (train : c'.depot.train = c.depot.train) (accepted : c'.accepted = c.accepted)
      (queued : c'.queued = c.queued) : Moves cfg c c' (.flushCbk now)

variable {cfg : Config} {c c' : Client} {i : Input} {o : Bool} {now : ℕ} {m : Message}

theorem send_of_boards (h : Boards cfg c m) : c.send cfg now m = .ok (true, c.board cfg now m) := by
  obtain ⟨hblocked, hlimit, hsize⟩ := h
  rw [send, if_neg (by simp [hblocked, hlimit]), if_neg (by simp [hsize])]

theorem moves_segmentMessage (hblocked : ¬ c.sendingBlocked)
    (hlimit : c.checkQueueLimit cfg m.data.length) (hsize : ¬ cfg.checkMessageSize m.data.length)
    (h : c.segmentMessage cfg now m = .ok (o, c')) : Moves cfg c c' (.send now m) := by
  rcases htp : cfg.segmentation m.identifier with _ | ⟨maxSegmentLength, separationTime⟩
  · simp only [segmentMessage, htp] at h
    cases h
    exact .idle rfl rfl rfl rfl
  · have htp' : cfg.segmentation m.identifier ≠ none := by simp [htp]
    have hlong := hsize
    rw [cfg.checkMessageSize_iff, cfg.udp m.identifier htp'] at hlong
    rcases hsplit : tpSplitMessage m.data maxSegmentLength with _ | segments
    · simp only [segmentMessage, htp, hsplit] at h
      cases h
    · obtain ⟨hne, -⟩ := Tp.tpSplitMessage_segments (by omega) hsplit
      simp only [segmentMessage, htp, hsplit, if_neg hne] at h
      cases h
      obtain ⟨first, rest, rfl⟩ := List.exists_cons_of_ne_nil hne
      exact .segments (readUint16Be first 0, readUint16Be first 2) ⟨hblocked, hlimit, hsize, htp'⟩
        rfl rfl rfl

theorem moves_flushCbk (c : Client) (now : ℕ) : Moves cfg c (c.flushCbk now).2 (.flushCbk now) := by
  have hflushes := ({ c.depot with dispatchTimer := none } : Depot Load).flushes
    (fun l => l.bytes.isEmpty) .empty now
  unfold flushCbk flush
  rcases hout : ({ c.depot with dispatchTimer := none } : Depot Load).flush
    (fun l => l.bytes.isEmpty) .empty now with ⟨_ | t, d⟩
  · rw [hout] at hflushes
    cases hflushes with
    | idle _ train dispatched => exact .idle train dispatched rfl rfl
    | discards t nobody first train =>
        exact .discards t (by simpa using nobody) first train rfl rfl
  · rw [hout] at hflushes
    refine .flushes t ?_ rfl rfl
    cases hflushes with
    | train somebody first train dispatched => exact .train somebody first train dispatched
    | dispatched t somebody first train => exact .dispatched t somebody first train

/-- **What a step can do.** -/
theorem moves_of_step (h : step cfg c i = .ok (o, c')) : Moves cfg c c' i := by
  rcases i with ⟨now, m⟩ | now | now | _
  · rw [step] at h
    by_cases hboards : Boards cfg c m
    · rw [send_of_boards hboards] at h
      cases h
      exact .boards hboards rfl
    · unfold send at h
      by_cases hrefused : c.sendingBlocked ∨ ¬ c.checkQueueLimit cfg m.data.length
      · rw [if_pos hrefused] at h
        cases h
        exact .idle rfl rfl rfl rfl
      · rw [if_neg hrefused] at h
        simp only [not_or, not_not] at hrefused
        have hsize : ¬ cfg.checkMessageSize m.data.length :=
          fun hsize => hboards ⟨hrefused.1, hrefused.2, hsize⟩
        rw [if_pos hsize] at h
        exact moves_segmentMessage hrefused.1 hrefused.2 hsize h
  · have hc : (c.flushCbk now).2 = c' := by rw [Except.ok.inj h]
    exact hc ▸ moves_flushCbk c now
  · cases h
    unfold sendCbk
    split
    · exact .idle rfl rfl rfl rfl
    · exact .idle rfl rfl rfl rfl
  · cases h
    exact .idle rfl rfl rfl rfl

end Client

end SomeipTunnel.Endpoint
