import SomeipTunnel.Lib.Table
import SomeipTunnel.Tp.Message

/-!
# `tp_reassembler`: the segmented messages of all senders

The model of `tp_reassembler.cpp`. `tp_messages_` is a map of maps of maps: sender address, sender
port, packed message id, and there the session and the `tp_message`. `processTpMessage` follows the
source's paths through the three levels, including the erasure of a completed message with the maps
that become empty, and `cleanupUnfinishedMessages` is the sweep. The clock is an input of both calls.
The cleanup timer is left out: a run may sweep at any time, so every behaviour of the timer is among
the runs.

`processTpMessage_eq` is the specification that all later proofs use: a call takes out the entry of
its key, does `entryStep` to it and puts the result back.
-/

namespace SomeipTunnel.Tp

open Table

variable {Address : Type*} [DecidableEq Address]

/-! ### The calls -/

/-- The session of the segments and the message they are collected in. -/
abbrev Entry := ℕ × TpMessage

/-- Source: `tp_reassembler.hpp`, `max_message_size_` and `tp_messages_` -/
structure TpReassembler (Address : Type*) where
  maxMessageSize_ : ℕ
  tpMessages_ : Table₃ Address UInt16 ℕ Entry
deriving DecidableEq

/-- Source: `tp_reassembler.cpp`, the constructor -/
def TpReassembler.new (maxMessageSize : ℕ) : TpReassembler Address := ⟨maxMessageSize, ∅⟩

/-- Source: `tp_reassembler.cpp`, `process_tp_message`, `its_session` -/
def sessionOf (data : List UInt8) : ℕ := readUint16Be data 10

/-- Source: `tp_reassembler.cpp`, `process_tp_message`, `its_tp_message_id` -/
def messageIdOf (data : List UInt8) : ℕ :=
  tpMessageId (readUint16Be data 0) (readUint16Be data 2) (readUint16Be data 8)
    (byteAt data 13).toNat (tpFlagUnset (byteAt data 14)).toNat

/-- Source: `tp_reassembler.cpp`, `process_tp_message` -/
def TpReassembler.processTpMessage (r : TpReassembler Address) (data : List UInt8)
    (address : Address) (port : UInt16) (now : ℤ) :
    Except Fault ((Bool × List UInt8) × TpReassembler Address) :=
  if data.length < 16 then .ok ((false, []), r)
  else
    let itsSession := sessionOf data
    let itsTpMessageId := messageIdOf data
    let tpMessage := TpMessage.new data r.maxMessageSize_ now
    match r.tpMessages_.lookup address with
    | some ports =>
        match ports.lookup port with
        | some ids =>
            match ids.lookup itsTpMessageId with
            | some (session, m) =>
                if session = itsSession then
                  -- received additional segment for already known message
                  match m.addSegment data with
                  | .error e => .error e
                  | .ok (true, m') =>
                      -- message is complete: cleanup tp_message and map
                      let ids' := ids.erase itsTpMessageId
                      let tpMessages :=
                        if ids'.entries.isEmpty then
                          let ports' := ports.erase port
                          if ports'.entries.isEmpty then r.tpMessages_.erase address
                          else r.tpMessages_.insert address ports'
                        else r.tpMessages_.insert address (ports.insert port ids')
                      .ok ((true, m'.message_), ⟨r.maxMessageSize_, tpMessages⟩)
                  | .ok (false, m') =>
                      .ok ((false, []), ⟨r.maxMessageSize_, r.tpMessages_.insert address
                        (ports.insert port (ids.insert itsTpMessageId (session, m')))⟩)
                else
                  -- new segment with different session id -> throw away current
                  .ok ((false, []), ⟨r.maxMessageSize_, r.tpMessages_.insert address
                    (ports.insert port (ids.insert itsTpMessageId (itsSession, tpMessage)))⟩)
            | none =>
                .ok ((false, []), ⟨r.maxMessageSize_, r.tpMessages_.insert address
                  (ports.insert port (ids.insert itsTpMessageId (itsSession, tpMessage)))⟩)
        | none =>
            .ok ((false, []), ⟨r.maxMessageSize_, r.tpMessages_.insert address
              (ports.insert port (AList.singleton itsTpMessageId (itsSession, tpMessage)))⟩)
    | none =>
        .ok ((false, []), ⟨r.maxMessageSize_, r.tpMessages_.insert address
          (AList.singleton port (AList.singleton itsTpMessageId (itsSession, tpMessage)))⟩)

/-- The message is older than 5 seconds; the age is truncated to milliseconds. -/
def expired (now : ℤ) (m : TpMessage) : Bool :=
  (now - m.timepointCreation_).tdiv 1000000 > 5000

/-- Source: `tp_reassembler.cpp`, `cleanup_unfinished_messages` -/
def TpReassembler.cleanupUnfinishedMessages (r : TpReassembler Address) (now : ℤ) :
    Bool × TpReassembler Address :=
  let sweepIds := filterMap fun e : Entry => if expired now e.2 then none else some e
  let sweepPorts := filterMap fun ids => prune (sweepIds ids)
  let tpMessages := filterMap (fun ports => prune (sweepPorts ports)) r.tpMessages_
  (!tpMessages.entries.isEmpty, { r with tpMessages_ := tpMessages })

/-! ### Runs -/

/-- The calls that a reassembler receives. -/
inductive Event (Address : Type*) where
  | segment (data : List UInt8) (address : Address) (port : UInt16) (now : ℤ)
  | sweep (now : ℤ)

/-- What the calls return. -/
inductive Answer where
  | result (complete : Bool) (message : List UInt8)
  | swept (remaining : Bool)
deriving DecidableEq, Repr

/-- One call. -/
def TpReassembler.step (r : TpReassembler Address) :
    Event Address → Except Fault (Answer × TpReassembler Address)
  | .segment data address port now =>
      (r.processTpMessage data address port now).map fun out =>
        (.result out.1.1 out.1.2, out.2)
  | .sweep now =>
      let out := r.cleanupUnfinishedMessages now
      .ok (.swept out.1, out.2)

/-! ### The effect on the entries -/

/-- What a segment does to the entry of its key. -/
def entryStep (maxMessageSize : ℕ) (data : List UInt8) (now : ℤ) :
    Option Entry → Except Fault ((Bool × List UInt8) × Option Entry)
  | some (session, m) =>
      if session = sessionOf data then
        (m.addSegment data).map fun out =>
          if out.1 then ((true, out.2.message_), none) else ((false, []), some (session, out.2))
      else .ok ((false, []), some (sessionOf data, TpMessage.new data maxMessageSize now))
  | none => .ok ((false, []), some (sessionOf data, TpMessage.new data maxMessageSize now))

/-- The key of a segment. -/
def keyOf (data : List UInt8) (address : Address) (port : UInt16) : Address × UInt16 × ℕ :=
  (address, port, messageIdOf data)

namespace TpReassembler

theorem get₃_new (max : ℕ) (k : Address × UInt16 × ℕ) :
    get₃ (new max : TpReassembler Address).tpMessages_ k = none := rfl

/-- **A call works on the entry of its key.** The paths of the source through the three maps are
one assignment.
Source: `tp_reassembler.cpp`, `process_tp_message` -/
theorem processTpMessage_eq (r : TpReassembler Address) {data : List UInt8}
    (address : Address) (port : UInt16) (now : ℤ) (h : 16 ≤ data.length) :
    r.processTpMessage data address port now =
      (entryStep r.maxMessageSize_ data now (get₃ r.tpMessages_ (keyOf data address port))).map
        fun out => (out.1, { r with
          tpMessages_ := set₃ r.tpMessages_ (keyOf data address port) out.2 }) := by
  unfold processTpMessage
  rw [if_neg (by omega)]
  simp only [keyOf, get₃, Table.inner]
  rcases hports : r.tpMessages_.lookup address with _ | ports
  · simp [entryStep, Except.map, set₃_some, Table.inner, hports]
  · simp only [Option.getD_some]
    rcases hids : ports.lookup port with _ | ids
    · simp [entryStep, Except.map, set₃_some, Table.inner, hports, hids]
    · simp only [Option.getD_some]
      rcases ids.lookup (messageIdOf data) with _ | ⟨session, m⟩
      · simp [entryStep, Except.map, set₃_some, Table.inner, hports, hids]
      · by_cases hsession : session = sessionOf data
        · rcases hadd : m.addSegment data with e | ⟨ret, m'⟩
          · simp [entryStep, Except.map, hsession, hadd]
          · cases ret
            · simp [entryStep, Except.map, hsession, hadd, set₃_some, Table.inner, hports, hids]
            · simp [entryStep, Except.map, hsession, hadd, set₃_none, Table.inner, hports, hids]
        · simp [entryStep, Except.map, hsession, set₃_some, Table.inner, hports, hids]

/-- **What a segment with a full header does**: `entryStep` at its key. -/
theorem step_segment_eq_ok {r r' : TpReassembler Address} {data : List UInt8}
    {address : Address} {port : UInt16} {now : ℤ} {o : Answer} (h : 16 ≤ data.length) :
    r.step (.segment data address port now) = .ok (o, r') ↔
      ∃ out, entryStep r.maxMessageSize_ data now
          (get₃ r.tpMessages_ (keyOf data address port)) = .ok out ∧ o = .result out.1.1 out.1.2 ∧
        r' = ⟨r.maxMessageSize_, set₃ r.tpMessages_ (keyOf data address port) out.2⟩ := by
  simp only [step, r.processTpMessage_eq address port now h]
  rcases entryStep r.maxMessageSize_ data now (get₃ r.tpMessages_ (keyOf data address port)) with
    e | out
  · simp [Except.map]
  · simp [Except.map, eq_comm]

/-- A datagram without a full header is ignored. -/
theorem step_segment_short (r : TpReassembler Address) {data : List UInt8}
    (address : Address) (port : UInt16) (now : ℤ) (h : data.length < 16) :
    r.step (.segment data address port now) = .ok (.result false [], r) := by
  simp only [step, processTpMessage, if_pos h, Except.map]

/-- What a sweep does: it drops the expired entries. -/
theorem step_sweep (r : TpReassembler Address) (now : ℤ) :
    ∃ more, r.step (.sweep now) = .ok (.swept more, ⟨r.maxMessageSize_,
      filterMap₃ (fun e => if expired now e.2 then none else some e) r.tpMessages_⟩) :=
  ⟨_, rfl⟩

/-- `P` holds of every entry and its key. -/
def AllEntries (P : Address × UInt16 × ℕ → Entry → Prop)
    (r : TpReassembler Address) : Prop :=
  ∀ k e, get₃ r.tpMessages_ k = some e → P k e

theorem allEntries_new (P : Address × UInt16 × ℕ → Entry → Prop) (max : ℕ) :
    (new max).AllEntries P := fun k _ he =>
  nomatch (get₃_new max k).symm.trans he

/-- **The invariant rule for entries**: what `entryStep` keeps at the key of a segment, every call
keeps at all keys. -/
theorem AllEntries.step {P : Address × UInt16 × ℕ → Entry → Prop}
    {r r' : TpReassembler Address} {e : Event Address} {o : Answer} (hr : r.AllEntries P)
    (hs : r.step e = .ok (o, r'))
    (hentry : ∀ data address port now, e = .segment data address port now → 16 ≤ data.length →
      ∀ out, entryStep r.maxMessageSize_ data now
        (get₃ r.tpMessages_ (keyOf data address port)) = .ok out →
      ∀ e' ∈ out.2, P (keyOf data address port) e') : r'.AllEntries P := by
  intro k e' he'
  rcases e with ⟨data, address, port, now⟩ | now
  · by_cases hlen : data.length < 16
    · obtain ⟨-, rfl⟩ :=
        StepRun.ok_unique hs (r.step_segment_short address port now hlen)
      exact hr k e' he'
    · have hlen := Nat.le_of_not_lt hlen
      obtain ⟨out, hout, -, rfl⟩ := (step_segment_eq_ok hlen).mp hs
      simp only [get₃_set₃] at he'
      split_ifs at he' with hk
      · rw [hk]
        exact hentry data address port now rfl hlen out hout e' he'
      · exact hr k e' he'
  · obtain ⟨more, hstep⟩ := r.step_sweep now
    obtain ⟨-, rfl⟩ := StepRun.ok_unique hs hstep
    rw [get₃_filterMap₃] at he'
    obtain ⟨e'', he'', hkeep⟩ := Option.bind_eq_some_iff.mp he'
    split_ifs at hkeep
    cases hkeep
    exact hr k _ he''

end TpReassembler

/-! ### Conditions on the calls -/

/-- The segment meets `P` at the message it goes to, and a datagram that starts a message has a TP
header and meets `P` at an empty message. -/
def entryMeets (P : TpMessage → List UInt8 → Prop) (max : ℕ) (data : List UInt8) (now : ℤ) :
    Option Entry → Prop
  | some (session, m) =>
      if session = sessionOf data then P m data
      else 20 ≤ data.length ∧ P (TpMessage.blank max now) data
  | none => 20 ≤ data.length ∧ P (TpMessage.blank max now) data

instance (P : TpMessage → List UInt8 → Prop) [∀ m data, Decidable (P m data)] (max : ℕ)
    (data : List UInt8) (now : ℤ) : (e : Option Entry) → Decidable (entryMeets P max data now e)
  | some (session, m) =>
      if h : session = sessionOf data then
        decidable_of_iff (P m data) (by rw [entryMeets, if_pos h])
      else
        decidable_of_iff (20 ≤ data.length ∧ P (TpMessage.blank max now) data)
          (by rw [entryMeets, if_neg h])
  | none => inferInstanceAs (Decidable (_ ∧ _))

/-- The segment of a call meets `P` at the entry of its key. -/
def TpReassembler.Meets (P : TpMessage → List UInt8 → Prop) (r : TpReassembler Address) :
    Event Address → Prop
  | .segment data address port now => 16 ≤ data.length →
      entryMeets P r.maxMessageSize_ data now (get₃ r.tpMessages_ (keyOf data address port))
  | .sweep _ => True

instance (P : TpMessage → List UInt8 → Prop) [∀ m data, Decidable (P m data)]
    (r : TpReassembler Address) : (e : Event Address) → Decidable (r.Meets P e)
  | .segment _ _ _ _ => inferInstanceAs (Decidable (_ → _))
  | .sweep _ => inferInstanceAs (Decidable True)

end SomeipTunnel.Tp
