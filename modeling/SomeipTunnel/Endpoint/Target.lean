import SomeipTunnel.Endpoint.Train
import SomeipTunnel.Lib.Run
import SomeipTunnel.Lib.Store

/-!
# A target of a server endpoint

`server_endpoint_impl` has for each remote endpoint that it sends to a current train, trains that
wait, and a queue of buffers (`endpoint_data_type`). Trains and queue own their buffers by
pointer, so the buffers are kept in a store and trains and queue have their addresses.

A buffer is a list of pieces: messages, segments of messages, and magic cookies that are inserted in
front of the first piece; its bytes are the bytes of the pieces one behind the other. Each message
has the number under which it was accepted. The pieces that have been sent and the messages that
`send_intern` has accepted for a train are there for the statements only.

`send_queued` is a function of the protocol; what it meets is an input (`Outcome`): the write is
started, perhaps with a cookie; nothing happens for want of a socket; or the connection is gone and
the queue is dropped.
-/

namespace SomeipTunnel.Endpoint

open Tp (readUint16Be tpSplitMessage)

/-! ### Buffers -/

/-- Source: `constants.hpp`, `SERVICE_COOKIE` -/
def serviceCookie : List UInt8 :=
  [0xFF, 0xFF, 0x80, 0x00, 0x00, 0x00, 0x00, 0x08, 0xDE, 0xAD, 0xBE, 0xEF, 0x01, 0x01, 0x02, 0x00]

/-- What a buffer is made of. -/
inductive Piece where
  | message (number : ℕ) (m : Message)
  | segment (number : ℕ) (data : List UInt8)
  | cookie
deriving DecidableEq

def Piece.data : Piece → List UInt8
  | .message _ m => m.data
  | .segment _ data => data
  | .cookie => serviceCookie

/-- The bytes of a buffer. -/
def bytes (pieces : List Piece) : List UInt8 := pieces.flatMap Piece.data

/-- The messages in a buffer. -/
def messages (pieces : List Piece) : List (ℕ × Message) :=
  pieces.filterMap fun
    | .message number m => some (number, m)
    | _ => none

/-- Source: `read_uint16_be(&(*buffer)[VSOMEIP_SERVICE_POS_MIN])` -/
def firstService (pieces : List Piece) : ℕ := readUint16Be (bytes pieces) 0

@[simp] theorem bytes_nil : bytes [] = [] := rfl

@[simp] theorem bytes_append (ps qs : List Piece) : bytes (ps ++ qs) = bytes ps ++ bytes qs :=
  List.flatMap_append

@[simp] theorem messages_nil : messages [] = [] := rfl

@[simp] theorem messages_append (ps qs : List Piece) :
    messages (ps ++ qs) = messages ps ++ messages qs := List.filterMap_append

/-- An empty buffer has no message. -/
theorem messages_eq_nil {pieces : List Piece} (h : bytes pieces = []) : messages pieces = [] := by
  refine List.filterMap_eq_nil_iff.mpr fun piece hp => ?_
  rcases piece with ⟨number, m⟩ | ⟨number, data⟩ | _
  · exact absurd (List.flatMap_eq_nil_iff.mp h _ hp) m.data_ne_nil
  · rfl
  · rfl

/-! ### Targets -/

/-- Source: `server_endpoint_impl.hpp`, `endpoint_data_type`. `inFlight` while a write has been
started whose callback has not come. -/
structure Target where
  depot : Depot ℕ
  store : Store Piece
  queue : List (ℕ × ℕ)
  queueSize : ℕ
  isSending : Bool
  inFlight : Bool
  accepted : List (ℕ × Message)
  sent : List Piece

/-- What `send_queued` meets. -/
inductive Outcome where
  /-- The write is started; `cookie` if cookies are enabled and the last one is older than ten
  seconds. -/
  | started (cookie : Bool)
  /-- There is no socket. -/
  | skipped
  /-- There is no connection to the target, and the queue is dropped. -/
  | dropped
deriving DecidableEq

namespace Target

/-- Why a step of the model fails. -/
inductive Fault where
  /-- `tp_split_message` does not end. -/
  | hangs
  /-- `pop_front` of an empty queue. -/
  | emptyQueue
deriving DecidableEq

/-- Source: the constructor of `endpoint_data_type` -/
def create (now : ℕ) : Target :=
  ⟨.new 0 now, Store.empty.alloc [], [], 0, false, false, [], []⟩

/-- Source: `buffer_->size()` -/
def size (t : Target) (address : ℕ) : ℕ := (bytes (t.store.content address)).length

/-- The sum of the sizes of the buffers in the queue. -/
def queuedBytes (t : Target) : ℕ := (t.queue.map fun entry => t.size entry.1).sum

/-- Source: `tcp_server_endpoint_impl.cpp`, `connection::send_magic_cookie`; the difference is one of
`size_t` -/
def cookieFits (cfg : Config) (size : ℕ) : Bool :=
  cfg.maxMessageSize = 0xFFFFFFFF ∨ (cfg.maxMessageSize + 2 ^ 64 - size) % 2 ^ 64 ≥ 16

/-- The services of the first messages of the buffers in the queue.
Source: `tcp_server_endpoint_impl.cpp`, `send_queued`, `its_services` -/
def queuedServices (t : Target) : List ℕ :=
  (t.queue.filter fun entry => t.size entry.1 > 11).map fun entry =>
    firstService (t.store.content entry.1)

/-- A cookie is inserted in front of the first buffer.
Source: `connection::send_queued` -/
def insertCookie (t : Target) (front : ℕ) : Target :=
  { t with
    store := t.store.modify front fun pieces => .cookie :: pieces
    queueSize := t.queueSize + serviceCookie.length }

/-- The write of the first buffer is started. -/
def startWrite (t : Target) : Target := { t with isSending := true, inFlight := true }

/-- The services of the buffers that were dropped, if they were, and the target.
Source: `udp_server_endpoint_impl.cpp` and `tcp_server_endpoint_impl.cpp`, `send_queued` -/
def sendQueued (cfg : Config) (t : Target) : Outcome → Option (List ℕ) × Target
  | .started cookie =>
      match t.queue with
      | [] => (none, t)
      | (front, _) :: _ =>
          if cookie ∧ cookieFits cfg (t.size front) then (none, (t.insertCookie front).startWrite)
          else (none, t.startWrite)
  | .skipped => (none, t)
  | .dropped => (some t.queuedServices, { t with queue := [] })

/-- Source: `queue_train`, up to `emplace_back` -/
def putTrain (t : Target) (buffer : ℕ) : Target :=
  { t with queueSize := t.queueSize + t.size buffer, queue := t.queue ++ [(buffer, 0)] }

/-- Source: `queue_train`, `send_segments`: no writing in progress -/
def sendUnlessSending (cfg : Config) (t : Target) (o : Outcome) : Option (List ℕ) × Target :=
  if ¬ t.isSending then t.sendQueued cfg o else (none, t)

/-- Source: `queue_train` -/
def queueTrain (cfg : Config) (t : Target) (buffer : ℕ) (o : Outcome) :
    Option (List ℕ) × Target :=
  (t.putTrain buffer).sendUnlessSending cfg o

/-- Source: `check_queue_limit` -/
def checkQueueLimit (cfg : Config) (t : Target) (size : ℕ) : Bool × Target :=
  if cfg.queueLimit = 0xFFFFFFFF then (true, t)
  else
    let t := if t.queueSize ≥ cfg.queueLimit then { t with queueSize := t.queuedBytes } else t
    (decide (t.queueSize + size ≤ cfg.queueLimit), t)

/-- The configured times; there are none for service discovery.
Source: `send_intern`, STEP 3; `VSOMEIP_SD_SERVICE`, `VSOMEIP_SD_METHOD` -/
def timing (cfg : Config) (id : Identifier) : Timing :=
  if id.1 ≠ 0xFFFF ∧ id.2 ≠ 0x8100 then cfg.timing id
  else ⟨0, 0, Nat.zero_le _, Nat.zero_le _⟩

/-- Source: `send_intern`, STEP 2 to 10; a new train has a new buffer -/
def board (cfg : Config) (t : Target) (now number : ℕ) (m : Message) : Target :=
  let d := t.depot.board t.store.fresh (t.size t.depot.train.buffer) m.data.length
    cfg.maxMessageSize now (timing cfg m.identifier) m.identifier
  { t with
    depot := d.startDispatchTimer now
    store := (t.store.alloc []).modify d.train.buffer fun pieces => pieces ++ [.message number m]
    accepted := t.accepted ++ [(number, m)] }

/-- A new buffer is made for a train of the depot. -/
def withDepot (t : Target) (d : Depot ℕ) : Target :=
  { t with depot := d, store := t.store.alloc [] }

/-- Source: `send_segments`, a round of the loop -/
def enqueue (t : Target) (piece : Piece) (separationTime : ℕ) : Target :=
  { t with
    store := t.store.alloc [piece]
    queue := t.queue ++ [(t.store.fresh, separationTime)]
    queueSize := t.queueSize + piece.data.length }

/-- Source: `send_segments`, the train -/
def passSegments (cfg : Config) (t : Target) (now : ℕ) (id : Identifier) : Target :=
  let d := { t.depot with train := t.depot.train.tighten (timing cfg id) }
  if d.train.passengers = ∅ then { t with depot := d }
  else t.withDepot (d.depart t.store.fresh now (timing cfg id))

/-- Source: `send_segments` -/
def sendSegments (cfg : Config) (t : Target) (now number : ℕ) (segments : List (List UInt8))
    (separationTime : ℕ) (o : Outcome) : Option (List ℕ) × Target :=
  match segments with
  | [] => (none, t)
  | first :: _ =>
      let t := t.passSegments cfg now (readUint16Be first 0, readUint16Be first 2)
      let t := segments.foldl (fun t s => t.enqueue (.segment number s) separationTime) t
      t.sendUnlessSending cfg o

/-- Whether the message was accepted, and what the target becomes.
Source: `segment_message` -/
def segmentMessage (cfg : Config) (t : Target) (now number : ℕ) (m : Message) (o : Outcome) :
    Except Fault (Bool × Option (List ℕ) × Target) :=
  match cfg.segmentation m.identifier with
  | none => .ok (false, none, t)
  | some (maxSegmentLength, separationTime) =>
      match tpSplitMessage m.data maxSegmentLength with
      | none => .error .hangs
      | some segments => .ok (true, t.sendSegments cfg now number segments separationTime o)

/-- Source: `send_intern` for a message within the maximum message size whose service is not
stopping -/
def sendTrain (cfg : Config) (t : Target) (now number : ℕ) (m : Message) : Bool × Target :=
  match t.checkQueueLimit cfg m.data.length with
  | (false, t) => (false, t)
  | (true, t) => (true, t.board cfg now number m)

/-- Source: `flush` -/
def flush (cfg : Config) (t : Target) (now : ℕ) (o : Outcome) : Option (List ℕ) × Target :=
  match t.depot.flush (fun buffer => (bytes (t.store.content buffer)).isEmpty) t.store.fresh now with
  | (none, d) => (none, { t with depot := d })
  | (some train, d) => (t.withDepot d).queueTrain cfg train.buffer o

/-- A buffer has been sent.
Source: `send_cbk`, up to `update_last_departure` -/
def complete (t : Target) (now : ℕ) : Except Fault Target :=
  match t.queue with
  | [] => .error .emptyQueue
  | (front, _) :: rest =>
      let t' := { t with
        depot := { t.depot with lastDeparture := some now }
        queue := rest
        inFlight := false
        sent := t.sent ++ t.store.content front }
      .ok { t' with
        queueSize := if t.size front ≤ t.queueSize then t.queueSize - t.size front
          else t'.queuedBytes }

/-- Source: `send_cbk`, behind the check of the stop handlers, unless the endpoint is stopped -/
def proceed (cfg : Config) (t : Target) (o : Outcome) : Option (List ℕ) × Target :=
  if t.queue ≠ [] then t.sendQueued cfg o else (none, { t with isSending := false })

/-- The passengers of the current train have a message of the service. -/
def Boarded (t : Target) (service : ℕ) : Prop := ∃ p ∈ t.depot.train.passengers, p.1 = service
deriving Decidable

/-- Source: `prepare_stop`, the loop over the targets for a service -/
def prepareStop (cfg : Config) (t : Target) (service : ℕ) (o : Outcome) :
    Option (List ℕ) × Target :=
  if t.Boarded service then
    { t with depot := { t.depot with dispatchTimer := none } }.queueTrain cfg t.depot.train.buffer o
  else (none, t)

/-- What happens to a target. -/
inductive Input where
  | sendIntern (now number : ℕ) (m : Message) (o : Outcome)
  | flushCbk (now : ℕ) (o : Outcome)
  /-- `send_cbk` without an error. -/
  | sendCbk (now : ℕ) (o : Outcome)
  | prepareStop (service : ℕ) (o : Outcome)

/-- The steps of a target of an endpoint that is not stopped. A callback comes only for a write that
has been started. -/
def step (cfg : Config) (t : Target) : Input → Except Fault (Bool × Target)
  | .sendIntern now number m o =>
      if ¬ cfg.checkMessageSize m.data.length then
        (t.segmentMessage cfg now number m o).map fun out => (out.1, out.2.2)
      else .ok (t.sendTrain cfg now number m)
  | .flushCbk now o =>
      .ok (true, ({ t with depot := { t.depot with dispatchTimer := none } }.flush cfg now o).2)
  | .sendCbk now o =>
      if t.inFlight then (t.complete now).map fun t => (true, (t.proceed cfg o).2)
      else .ok (false, t)
  | .prepareStop service o => .ok (true, (t.prepareStop cfg service o).2)

end Target

end SomeipTunnel.Endpoint
