import SomeipTunnel.Endpoint.Responses
import SomeipTunnel.Lib.Probe
import SomeipTunnel.Tp.Reassembler

/-!
# `udp_server_endpoint_impl`: the messages of a datagram

The model of `on_message_received_unlocked`. The receive buffer has `VSOMEIP_MAX_UDP_MESSAGE_SIZE`
bytes; a datagram is in front, and behind it is what earlier datagrams have left there. The loop goes
through the datagram message by message. It is a program of `Probe`, so that every index it reads is
on record, with the index of the current message (`i`), the number of bytes behind it
(`remaining_bytes`) and the calls it makes.

* `loop_spec`: a message that is read is within the datagram, with one exception: `ShortTail`, an
  announced size of 9 to 14 bytes where no more than 14 are left. The header fields of such a message
  are not checked, but its message type, at position 14, is read.
* `datagram_reads_iff`: reads, calls and loop variables stay within the datagram iff the loop does not
  get to such a message.
* `datagram_messages`: a datagram of well-formed messages is handed on message by message.

Source: vsomeip/implementation/endpoints/src/udp_server_endpoint_impl.cpp,
vsomeip/implementation/utility/src/utility.cpp
-/

namespace SomeipTunnel.Endpoint.Udp

open Buffer List Relation Table Probe
open Tp (u32 byteAt tpFlagIsSet tpFlagUnset TpReassembler)
open Utility (isValidMessageType isValidReturnCode)

/-! ### Reading from the buffer -/

/-- Source: `bithelper.hpp`, `read_uint16_be` -/
def readUint16Be (pos : ℕ) : Probe UInt8 ℕ := do
  let high ← read pos
  let low ← read (pos + 1)
  pure (high.toNat * 2 ^ 8 + low.toNat)

/-- Source: `bithelper.hpp`, `read_uint32_be` -/
def readUint32Be (pos : ℕ) : Probe UInt8 ℕ := do
  let b₃ ← read pos
  let b₂ ← read (pos + 1)
  let b₁ ← read (pos + 2)
  let b₀ ← read (pos + 3)
  pure (b₃.toNat * 2 ^ 24 + b₂.toNat * 2 ^ 16 + b₁.toNat * 2 ^ 8 + b₀.toNat)

/-- Source: `utility::get_message_size`; the sum is one of `uint32_t` -/
def getMessageSize (pos size : ℕ) : Probe UInt8 ℕ :=
  if 8 ≤ size then do
    let length ← readUint32Be (pos + 4)
    pure (u32 (8 + length))
  else pure 0

/-! ### The endpoint and its calls -/

/-- What the loop asks its surroundings. -/
structure Config where
  /-- `get_local_port() == configuration_->get_sd_port()` -/
  isSdPort : Bool
  getInstance : ℕ → ℕ
  tpSegmentationEnabled : ℕ → ℕ → ℕ → Bool

/-- The members that the loop changes. -/
structure State (A : Type*) where
  clients : Clients (A × UInt16)
  tpReassembler : TpReassembler A

/-- The calls of the loop. Those to the routing host also get the endpoint, the remote and whether
the datagram came by multicast, the same for all. -/
inductive Call where
  /-- `its_host->on_message(&_buffer[first], count, ..)` -/
  | onMessage (first count : ℕ)
  /-- `its_host->on_message(&res.second[0], ..)` -/
  | onAssembled (message : List UInt8)
  /-- `its_endpoint_host->on_error(&_buffer[first], count, ..)` -/
  | onError (first count : ℕ)
  /-- `tp_reassembler_->process_tp_message(&_buffer[first], count, ..)` -/
  | processTpMessage (first count : ℕ)
deriving DecidableEq

/-- The range that is passed is within the first `n` bytes. -/
def Call.Within (n : ℕ) : Call → Prop
  | .onMessage first count | .onError first count | .processTpMessage first count =>
      first + count ≤ n
  | .onAssembled _ => True

/-- How a round of the loop ends: in front of the test of `remaining_bytes`, by a `return`, or in a
call of the reassembler that leaves the defined behaviour. -/
inductive Next where
  | test (i remaining : ℕ)
  | stop
  | undefined (fault : Tp.Fault)
deriving DecidableEq

/-- What a round of the loop does. -/
structure Round (A : Type*) where
  calls : List Call
  state : State A
  next : Next

/-- What the loop does. `positions` are the values of `i` and `remaining_bytes` at the start of each
round and at the end of the loop. -/
structure Outcome (A : Type*) where
  calls : List Call
  state : State A
  positions : List (ℕ × ℕ)
  undefined : Option Tp.Fault

/-! ### The rounds -/

section code

variable {A : Type} [DecidableEq A] (c : Config) (remote : A × UInt16) (now : ℤ)

/-- The tests of the header, made for messages with a full one only; `some` are the calls in front of
the `return`.
Source: `on_message_received_unlocked`, lines 632–670 -/
def headerTests (i currentMessageSize : ℕ) : Probe UInt8 (Option (List Call)) :=
  if 15 < currentMessageSize then do
    let version ← read (i + 12)
    if version ≠ 1 then
      -- ensure to send back a message w/ wrong protocol version
      pure (some [.onMessage i 16])
    else
      let type ← read (i + 14)
      if !isValidMessageType (tpFlagUnset type) then pure (some [])
      else
        let code ← read (i + 15)
        if !isValidReturnCode code then pure (some [])
        else if tpFlagIsSet type && c.isSdPort then pure (some [])
        else pure none
  else pure none

/-- Source: `clients_[to_clients_key(its_service, its_method, its_client)][its_session] = _remote` -/
def record (clients : Clients (A × UInt16)) (service method client session : ℕ) :
    Clients (A × UInt16) :=
  if BitVec.ofNat 16 client ≠ magicCookieClient then
    let key := toClientsKey (.ofNat 16 service) (.ofNat 16 method) (.ofNat 16 client)
    clients.insert key ((inner clients key).insert (.ofNat 16 session) remote)
  else clients

/-- Source: `on_message_received_unlocked`, lines 673–682 -/
def recordRequest (clients : Clients (A × UInt16)) (i service : ℕ) :
    Probe UInt8 (Clients (A × UInt16)) := do
  let type ← read (i + 14)
  if isRequest type then
    let client ← readUint16Be (i + 8)
    if BitVec.ofNat 16 client ≠ magicCookieClient then
      let method ← readUint16Be (i + 2)
      let session ← readUint16Be (i + 10)
      pure (record remote clients service method client session)
    else pure clients
  else pure clients

/-- A segment goes to the reassembler, and the message it completes to the routing host.
Source: `on_message_received_unlocked`, lines 698–712 -/
def assemble (s : State A) (i currentMessageSize remaining service method : ℕ)
    (segment : List UInt8) : Round A :=
  match s.tpReassembler.processTpMessage segment remote.1 remote.2 now with
  | .error fault => ⟨[.processTpMessage i currentMessageSize], s, .undefined fault⟩
  | .ok ((complete, message), tpReassembler) =>
      let next := .test (i + currentMessageSize) remaining
      if complete then
        let clients := if isRequest (byteAt message 14) then
            record remote s.clients service method (Tp.readUint16Be message 8)
              (Tp.readUint16Be message 10)
          else s.clients
        ⟨[.processTpMessage i currentMessageSize, .onAssembled message], ⟨clients, tpReassembler⟩,
          next⟩
      else ⟨[.processTpMessage i currentMessageSize], ⟨s.clients, tpReassembler⟩, next⟩

/-- A message with a length that fits and a header that passes; `remaining` is what is behind it.
Source: `on_message_received_unlocked`, lines 671–731 -/
def takeMessage (s : State A) (i currentMessageSize remaining : ℕ) : Probe UInt8 (Round A) := do
  let itsService ← readUint16Be i
  let clients ← recordRequest remote s.clients i itsService
  let s := { s with clients := clients }
  let type ← read (i + 14)
  if tpFlagIsSet type then
    let itsMethod ← readUint16Be (i + 2)
    let itsInstance := c.getInstance itsService
    if itsInstance ≠ 0xFFFF ∧ !c.tpSegmentationEnabled itsService itsInstance itsMethod then
      pure ⟨[], s, .stop⟩
    else
      let buffer ← buffer
      pure (assemble remote now s i currentMessageSize remaining itsService itsMethod
        (slice buffer i currentMessageSize))
  else
    let calls := if itsService ≠ 0xFFFF ∨ 8 < currentMessageSize ∧ remaining ≤ currentMessageSize then
        [.onMessage i currentMessageSize]
      else []
    pure ⟨calls, s, .test (i + currentMessageSize) remaining⟩

/-- A message with a length that does not fit; the service is that of the datagram's first message.
Source: `on_message_received_unlocked`, lines 732–757 -/
def badLength (s : State A) (i remaining readMessageSize : ℕ) : Probe UInt8 (Round A) :=
  if 1 < remaining then do
    let itsService ← readUint16Be 0
    let calls := if itsService ≠ 0xFFFF ∧ readMessageSize ≠ 0 then [.onError i remaining] else []
    pure ⟨calls, s, .test i 0⟩
  else pure ⟨[], s, .test i 0⟩

/-- Source: `on_message_received_unlocked`, the body of the loop. The sizes are `uint32_t` values, so
that none exceeds `MESSAGE_SIZE_UNLIMITED`, and the difference does not underflow. -/
def round (s : State A) (i remaining : ℕ) : Probe UInt8 (Round A) := do
  let readMessageSize ← getMessageSize i remaining
  if 8 < readMessageSize ∧ readMessageSize ≤ remaining then
    match ← headerTests c i readMessageSize with
    | some calls => pure ⟨calls, s, .stop⟩
    | none => takeMessage c remote now s i readMessageSize (remaining - readMessageSize)
  else badLength s i remaining readMessageSize

/-- Source: `on_message_received_unlocked`, `do .. while (remaining_bytes > 0)`; `none` if the loop
has not come to an end when the fuel is used up -/
def loop : ℕ → State A → ℕ → ℕ → Probe UInt8 (Option (Outcome A))
  | 0, _, _, _ => pure none
  | fuel + 1, s, i, remaining => do
      let r ← round c remote now s i remaining
      match r.next with
      | .stop => pure (some ⟨r.calls, r.state, [(i, remaining)], none⟩)
      | .undefined fault => pure (some ⟨r.calls, r.state, [(i, remaining)], some fault⟩)
      | .test i' remaining' =>
          if 0 < remaining' then
            let rest ← loop fuel r.state i' remaining'
            pure (rest.map fun o => { o with
              calls := r.calls ++ o.calls, positions := (i, remaining) :: o.positions })
          else pure (some ⟨r.calls, r.state, [(i, remaining), (i', remaining')], none⟩)

/-- Source: `udp_server_endpoint_impl.cpp`, `on_message_received_unlocked`; `routingHost` if the host
is still there -/
def onMessageReceivedUnlocked (routingHost error : Bool) (s : State A) (bytes : ℕ) :
    Probe UInt8 (Option (Outcome A)) :=
  if routingHost ∧ !error ∧ 0 < bytes then loop c remote now bytes s 0 bytes
  else pure (some ⟨[], s, [], none⟩)

end code

/-- A datagram of at least one byte in the receive buffer.
Source: `unicast_recv_buffer_(VSOMEIP_MAX_UDP_MESSAGE_SIZE, 0)` and `_bytes` -/
structure Datagram where
  buffer : List UInt8
  bytes : ℕ
  length_buffer : buffer.length = 1416
  pos : 0 < bytes
  bytes_le : bytes ≤ 1416

/-- The bytes that were received. -/
def Datagram.received (g : Datagram) : List UInt8 := g.buffer.take g.bytes

/-! ### What is read -/

section reading

variable {b : List UInt8} {n pos i size : ℕ}

@[simp] theorem value_readUint16Be (pos : ℕ) (b : List UInt8) :
    (readUint16Be pos).value b = Tp.readUint16Be b pos := rfl

@[simp] theorem value_readUint32Be (pos : ℕ) (b : List UInt8) :
    (readUint32Be pos).value b = Tp.readUint32Be b pos := rfl

@[simp] theorem within_readUint16Be : (readUint16Be pos).Within n b ↔ pos + 1 < n := by
  simp only [readUint16Be, within_bind, within_read, within_pure, and_true]
  omega

@[simp] theorem within_readUint32Be : (readUint32Be pos).Within n b ↔ pos + 3 < n := by
  simp only [readUint32Be, within_bind, within_read, within_pure, and_true]
  omega

theorem byteAt_slice {k : ℕ} (h : k < size) : byteAt (slice b i size) k = byteAt b (i + k) :=
  Tp.byteAt_eq_of_getElem? (getElem?_slice h)

theorem readUint16Be_slice (h : pos + 1 < size) :
    Tp.readUint16Be (slice b i size) pos = Tp.readUint16Be b (i + pos) := by
  unfold Tp.readUint16Be
  rw [byteAt_slice (by omega), byteAt_slice h, Nat.add_assoc]

/-- The size is read from the bytes at hand. -/
theorem value_getMessageSize (h : i + size ≤ b.length) :
    (getMessageSize i size).value b = Utility.getMessageSize (slice b i size) := by
  unfold getMessageSize Utility.getMessageSize
  rw [length_slice h]
  split_ifs with h8
  · have hread : Tp.readUint32Be (slice b i size) 4 = Tp.readUint32Be b (i + 4) := by
      unfold Tp.readUint32Be
      rw [byteAt_slice (by omega), byteAt_slice (by omega), byteAt_slice (by omega),
        byteAt_slice (by omega)]
    rw [value_bind, value_pure, value_readUint32Be, hread]
  · rw [value_pure]

theorem within_getMessageSize (h : i + size ≤ n) : (getMessageSize i size).Within n b := by
  unfold getMessageSize
  split_ifs with h8
  · simp only [within_bind, within_readUint32Be, within_pure, and_true]
    omega
  · simp

end reading

/-! ### What a round does -/

/-- The header of a message passes the tests. -/
def HeaderOk (c : Config) (m : List UInt8) : Prop :=
  byteAt m 12 = 1 ∧ isValidMessageType (tpFlagUnset (byteAt m 14)) = true ∧
    isValidReturnCode (byteAt m 15) = true ∧ (tpFlagIsSet (byteAt m 14) && c.isSdPort) = false

instance (c : Config) (m : List UInt8) : Decidable (HeaderOk c m) :=
  inferInstanceAs (Decidable (_ ∧ _))

/-- The service of the message is offered by this endpoint, and TP is not configured for it. -/
def TpRefused (c : Config) (m : List UInt8) : Prop :=
  c.getInstance (Tp.readUint16Be m 0) ≠ 0xFFFF ∧
    !c.tpSegmentationEnabled (Tp.readUint16Be m 0) (c.getInstance (Tp.readUint16Be m 0))
      (Tp.readUint16Be m 2)

instance (c : Config) (m : List UInt8) : Decidable (TpRefused c m) :=
  inferInstanceAs (Decidable (_ ∧ _))

section rounds

variable {A : Type} {c : Config} {remote : A × UInt16} {now : ℤ} {b : List UInt8}
  {n i size remaining : ℕ} {s : State A}

/-- The tests pass exactly the headers that are in order. -/
theorem value_headerTests (h : size ≤ remaining) :
    (headerTests c i size).value b = none ↔ (15 < size → HeaderOk c (slice b i remaining)) := by
  unfold headerTests HeaderOk
  by_cases h15 : 15 < size
  · rw [if_pos h15, byteAt_slice (by omega), byteAt_slice (by omega), byteAt_slice (by omega)]
    simp only [value_bind]
    have hbyte : ∀ k, (read (i + k)).value b = byteAt b (i + k) := fun _ => rfl
    rw [hbyte 12]
    by_cases hv : byteAt b (i + 12) = 1
    · rw [if_neg (not_not.mpr hv), value_bind, hbyte 14]
      by_cases ht : isValidMessageType (tpFlagUnset (byteAt b (i + 14))) = true
      · rw [if_neg (by simp [ht]), value_bind, hbyte 15]
        by_cases hr : isValidReturnCode (byteAt b (i + 15)) = true
        · rw [if_neg (by simp [hr])]
          split_ifs with hsd <;> simp_all
        · simp [hr, h15]
      · simp [ht, h15]
    · simp [hv, h15]
  · simp [h15]

theorem within_headerTests (h : i + size ≤ n) : (headerTests c i size).Within n b := by
  simp only [headerTests, within_ite, within_bind, within_read,
    within_pure, implies_true, true_and, and_true]
  intro h15
  exact ⟨by omega, fun _ => ⟨by omega, fun _ => by omega⟩⟩

/-- A message that is refused has a full header, and at most that is handed on. -/
theorem headerTests_eq_some {calls : List Call} (h : (headerTests c i size).value b = some calls) :
    15 < size ∧ ∀ call ∈ calls, call = .onMessage i 16 := by
  simp only [headerTests, value_ite, value_bind, value_pure] at h
  split_ifs at h with h15 hv ht hr hsd
  · cases h
    exact ⟨h15, fun call hcall => mem_singleton.mp hcall⟩
  all_goals
    cases h
    exact ⟨h15, fun call hcall => absurd hcall not_mem_nil⟩

/-- The message type is read whatever the size. -/
theorem within_recordRequest (clients : Clients (A × UInt16)) (service : ℕ) :
    (recordRequest remote clients i service).Within n b ↔ i + 14 < n := by
  simp only [recordRequest, within_ite, within_bind, within_read,
    within_readUint16Be, within_pure, implies_true, and_true]
  constructor
  · intro h
    exact h.1
  · intro h
    exact ⟨h, fun _ => ⟨by omega, fun _ => by omega⟩⟩

theorem within_badLength {readMessageSize : ℕ} (h : remaining ≤ n) :
    (badLength s i remaining readMessageSize).Within n b := by
  simp only [badLength, within_ite, within_bind, within_readUint16Be,
    within_pure, implies_true, and_true]
  omega

variable [DecidableEq A]

/-- **A message that is taken is read up to its message type**, and no further. -/
theorem within_takeMessage :
    (takeMessage c remote now s i size remaining).Within n b ↔ i + 14 < n := by
  simp only [takeMessage, within_ite, within_bind, within_read,
    within_recordRequest, within_readUint16Be, within_pure, within_buffer,
    implies_true, and_true]
  constructor
  · intro h
    exact h.2.1
  · intro h
    exact ⟨by omega, h, h, fun _ => by omega⟩

/-! ### The way through the datagram -/

/-- The next message of a datagram and the reassembler there: the message in front has a length that
fits and a header that passes, and as a segment it is taken by the reassembler. -/
def pass? (c : Config) (remote : A × UInt16) (now : ℤ) (x : List UInt8 × TpReassembler A) :
    Option (List UInt8 × TpReassembler A) :=
  let size := Utility.getMessageSize x.1
  if 8 < size ∧ size ≤ x.1.length ∧ (15 < size → HeaderOk c x.1) then
    if tpFlagIsSet (byteAt x.1 14) then
      if TpRefused c x.1 then none
      else
        match x.2.processTpMessage (x.1.take size) remote.1 remote.2 now with
        | .ok (_, tpReassembler) => some (x.1.drop size, tpReassembler)
        | .error _ => none
    else some (x.1.drop size, x.2)
  else none

/-- The loop gets to `y` from `x`. -/
def Reaches (c : Config) (remote : A × UInt16) (now : ℤ) :
    List UInt8 × TpReassembler A → List UInt8 × TpReassembler A → Prop :=
  ReflTransGen fun x y => pass? c remote now x = some y

/-- The bytes that are left are no more than 14, and the message in front announces 9 bytes or more
that are there. -/
def ShortTail (m : List UInt8) : Prop :=
  8 < Utility.getMessageSize m ∧ Utility.getMessageSize m ≤ m.length ∧ m.length ≤ 14

instance (m : List UInt8) : Decidable (ShortTail m) := inferInstanceAs (Decidable (_ ∧ _))

/-- The loop gets to no short tail. -/
def Clear (c : Config) (remote : A × UInt16) (now : ℤ) (x : List UInt8 × TpReassembler A) : Prop :=
  ∀ y, Reaches c remote now x y → ¬ ShortTail y.1

/-- There is one way through a datagram. -/
theorem clear_iff {x : List UInt8 × TpReassembler A} : Clear c remote now x ↔
      ¬ ShortTail x.1 ∧ ∀ x', pass? c remote now x = some x' → Clear c remote now x' := by
  constructor
  · intro h
    exact ⟨h x .refl, fun x' hx' y hy => h y (.head hx' hy)⟩
  · rintro ⟨hx, hnext⟩ y hy
    rcases ReflTransGen.cases_head hy with rfl | ⟨x', hx', hy'⟩
    · exact hx
    · exact hnext x' hx' y hy'

/-- At the end of the datagram nothing is left. -/
theorem clear_nil (r : TpReassembler A) : Clear c remote now ([], r) := by
  have hnil : ¬ ShortTail [] := by decide
  rw [clear_iff]
  exact ⟨hnil, fun x' hx' => nomatch hx'⟩

variable {segment : List UInt8} {service method : ℕ}

theorem assemble_calls {call : Call}
    (hcall : call ∈ (assemble remote now s i size remaining service method segment).calls)
    (h : i + size ≤ n) : call.Within n := by
  unfold assemble at hcall
  rcases hout : s.tpReassembler.processTpMessage segment remote.1 remote.2 now with
    fault | ⟨⟨_ | _, message⟩, r⟩ <;> rw [hout] at hcall
  · obtain rfl := mem_singleton.mp hcall
    exact h
  · obtain rfl := mem_singleton.mp hcall
    exact h
  · rcases mem_cons.mp hcall with rfl | hcall
    · exact h
    · obtain rfl := mem_singleton.mp hcall
      trivial

/-- Where the reassembler returns, the loop goes on behind the segment. -/
theorem assemble_of_ok {out : Bool × List UInt8} {r : TpReassembler A}
    (h : s.tpReassembler.processTpMessage segment remote.1 remote.2 now = .ok (out, r)) :
    (assemble remote now s i size remaining service method segment).next =
        .test (i + size) remaining ∧
      (assemble remote now s i size remaining service method segment).state.tpReassembler = r := by
  unfold assemble
  rw [h]
  rcases out with ⟨_ | _, message⟩ <;> exact ⟨rfl, rfl⟩

theorem assemble_of_error {fault : Tp.Fault}
    (h : s.tpReassembler.processTpMessage segment remote.1 remote.2 now = .error fault) :
    (assemble remote now s i size remaining service method segment).next = .undefined fault := by
  unfold assemble
  rw [h]

/-- A message that is taken is the only one its calls are about. -/
theorem takeMessage_calls {call : Call}
    (hcall : call ∈ ((takeMessage c remote now s i size remaining).value b).calls)
    (h : i + size ≤ n) : call.Within n := by
  simp only [takeMessage, value_bind, value_ite, value_pure] at hcall
  split_ifs at hcall
  · exact absurd hcall not_mem_nil
  · exact assemble_calls hcall h
  · obtain rfl := mem_singleton.mp hcall
    exact h
  · exact absurd hcall not_mem_nil

/-- Behind a message that is taken, the loop goes on with the next one or ends. -/
theorem takeMessage_next {i' remaining' : ℕ}
    (h : ((takeMessage c remote now s i size remaining).value b).next = .test i' remaining') :
    i' = i + size ∧ remaining' = remaining := by
  simp only [takeMessage, value_bind, value_ite, value_pure] at h
  split_ifs at h
  · unfold assemble at h
    split at h
    · cases h
    · split_ifs at h <;> exact ⟨(Next.test.inj h).1.symm, (Next.test.inj h).2.symm⟩
  all_goals exact ⟨(Next.test.inj h).1.symm, (Next.test.inj h).2.symm⟩

/-- What is done with a message whose type is there, in terms of its bytes. -/
theorem takeMessage_eq (c : Config) (remote : A × UInt16) (now : ℤ) (s : State A) (i size behind : ℕ)
    (b : List UInt8) (h14 : 14 < remaining) :
    ∃ clients, (takeMessage c remote now s i size behind).value b =
      if tpFlagIsSet (byteAt (slice b i remaining) 14) then
        if TpRefused c (slice b i remaining) then ⟨[], ⟨clients, s.tpReassembler⟩, .stop⟩
        else assemble remote now ⟨clients, s.tpReassembler⟩ i size behind
          (Tp.readUint16Be (slice b i remaining) 0) (Tp.readUint16Be (slice b i remaining) 2)
          (slice b i size) else
        ⟨if Tp.readUint16Be (slice b i remaining) 0 ≠ 0xFFFF ∨ 8 < size ∧ behind ≤ size then
            [.onMessage i size] else [], ⟨clients, s.tpReassembler⟩, .test (i + size) behind⟩ := by
  have htype : (read (i + 14)).value b = byteAt (slice b i remaining) 14 :=
    (byteAt_slice h14).symm
  have hservice : (readUint16Be i).value b = Tp.readUint16Be (slice b i remaining) 0 := by
    rw [readUint16Be_slice (by omega), value_readUint16Be, Nat.add_zero]
  have hmethod : (readUint16Be (i + 2)).value b = Tp.readUint16Be (slice b i remaining) 2 := by
    rw [readUint16Be_slice (by omega), value_readUint16Be]
  refine ⟨(recordRequest remote s.clients i ((readUint16Be i).value b)).value b, ?_⟩
  simp only [takeMessage, value_bind, value_ite, value_pure,
    value_buffer, htype, hservice, hmethod]
  rfl

/-- **Where the message type is there, the loop takes the way through the datagram.** -/
theorem takeMessage_pass (c : Config) (remote : A × UInt16) (now : ℤ) (s : State A)
    (h14 : 14 < remaining) (hb : i + remaining ≤ b.length)
    (hsize : Utility.getMessageSize (slice b i remaining) = size)
    (hfits : 8 < size ∧ size ≤ remaining)
    (hheader : 15 < size → HeaderOk c (slice b i remaining)) :
    match pass? c remote now (slice b i remaining, s.tpReassembler) with
    | some y =>
        ((takeMessage c remote now s i size (remaining - size)).value b).next =
            .test (i + size) (remaining - size) ∧
          y = (slice b (i + size) (remaining - size),
            ((takeMessage c remote now s i size (remaining - size)).value b).state.tpReassembler)
    | none => ∀ i' remaining',
        ((takeMessage c remote now s i size (remaining - size)).value b).next ≠
          .test i' remaining' := by
  have hlen : (slice b i remaining).length = remaining := length_slice hb
  have hdrop : (slice b i remaining).drop size = slice b (i + size) (remaining - size) := by
    rw [slice, slice, drop_take, drop_drop]
  have htake : (slice b i remaining).take size = slice b i size := by
    rw [slice, slice, take_take, Nat.min_eq_left hfits.2]
  obtain ⟨clients, heq⟩ := takeMessage_eq c remote now s i size (remaining - size) b h14
  rw [heq]
  simp only [pass?, hsize, hlen, hdrop, htake]
  rw [if_pos ⟨hfits.1, hfits.2, hheader⟩]
  by_cases htp : tpFlagIsSet (byteAt (slice b i remaining) 14) = true
  · rw [if_pos htp, if_pos htp]
    by_cases href : TpRefused c (slice b i remaining)
    · rw [if_pos href, if_pos href]
      simp
    · rw [if_neg href, if_neg href]
      rcases hout : s.tpReassembler.processTpMessage (slice b i size) remote.1 remote.2 now with
        fault | ⟨out, r⟩
      · rw [assemble_of_error (s := ⟨clients, s.tpReassembler⟩) hout]
        simp
      · rw [(assemble_of_ok (s := ⟨clients, s.tpReassembler⟩) hout).1,
          (assemble_of_ok (s := ⟨clients, s.tpReassembler⟩) hout).2]
        exact ⟨rfl, rfl⟩
  · rw [if_neg htp, if_neg htp]
    exact ⟨rfl, rfl⟩

/-! ### The loop -/

/-- What a round says about the rest of the loop: the calls and the position behind it are within the
bytes that are left, and it reads behind them, or it goes the way through the datagram. -/
structure Follows (c : Config) (remote : A × UInt16) (now : ℤ) (s : State A) (i remaining : ℕ)
    (b : List UInt8) (r : Round A) : Prop where
  calls : ∀ call ∈ r.calls, call.Within (i + remaining)
  position : ∀ i' remaining', r.next = .test i' remaining' →
    i' + remaining' ≤ i + remaining ∧ remaining' < remaining ∧
      (0 < remaining' → i' + remaining' = i + remaining)
  reads : (round c remote now s i remaining).Within (i + remaining) b ↔
    ¬ ShortTail (slice b i remaining)
  way : ¬ ShortTail (slice b i remaining) →
    match pass? c remote now (slice b i remaining, s.tpReassembler) with
    | some y => ∃ i' remaining', r.next = .test i' remaining' ∧
        y = (slice b i' remaining', r.state.tpReassembler)
    | none => ∀ i' remaining', r.next = .test i' remaining' → remaining' = 0

theorem badLength_follows (hpos : 0 < remaining) (hb : i + remaining ≤ b.length)
    (h : ¬ (8 < Utility.getMessageSize (slice b i remaining) ∧
      Utility.getMessageSize (slice b i remaining) ≤ remaining)) :
    Follows c remote now s i remaining b ((round c remote now s i remaining).value b) := by
  have hsize := value_getMessageSize hb
  have hlen : (slice b i remaining).length = remaining := length_slice hb
  have hshort : ¬ ShortTail (slice b i remaining) := by
    rintro ⟨h₁, h₂, -⟩
    exact h ⟨h₁, h₂.trans_eq hlen⟩
  have hvalue : (round c remote now s i remaining).value b =
      (badLength s i remaining (Utility.getMessageSize (slice b i remaining))).value b := by
    simp only [round, value_bind, hsize, if_neg h]
  have hnext : ((round c remote now s i remaining).value b).next = .test i 0 := by
    rw [hvalue, badLength, value_ite]
    split_ifs <;> rfl
  refine ⟨?_, ?_, ?_, fun _ => ?_⟩
  · intro call hcall
    rw [hvalue, badLength, value_ite] at hcall
    split_ifs at hcall
    · simp only [value_bind, value_pure] at hcall
      split_ifs at hcall
      · obtain rfl := mem_singleton.mp hcall
        exact le_rfl
      · exact absurd hcall not_mem_nil
    · exact absurd hcall not_mem_nil
  · intro i' remaining' h'
    obtain ⟨rfl, rfl⟩ := Next.test.inj (hnext.symm.trans h')
    omega
  · refine iff_of_true ?_ hshort
    simp only [round, within_bind, hsize, if_neg h]
    exact ⟨within_getMessageSize le_rfl, within_badLength (Nat.le_add_left _ _)⟩
  · have hnone : pass? c remote now (slice b i remaining, s.tpReassembler) = none := by
      simp only [pass?, hlen]
      exact if_neg fun hp => h ⟨hp.1, hp.2.1⟩
    rw [hnone]
    intro i' remaining' h'
    exact (Next.test.inj (hnext.symm.trans h')).2.symm

theorem refused_follows {calls : List Call} (hb : i + remaining ≤ b.length)
    (h : 8 < Utility.getMessageSize (slice b i remaining) ∧
      Utility.getMessageSize (slice b i remaining) ≤ remaining)
    (htests : (headerTests c i (Utility.getMessageSize (slice b i remaining))).value b = some calls) :
    Follows c remote now s i remaining b ((round c remote now s i remaining).value b) := by
  have hsize := value_getMessageSize hb
  have hlen : (slice b i remaining).length = remaining := length_slice hb
  obtain ⟨h15, hcalls⟩ := headerTests_eq_some htests
  have hshort : ¬ ShortTail (slice b i remaining) := by
    rintro ⟨-, -, h₃⟩
    omega
  have hvalue : (round c remote now s i remaining).value b = ⟨calls, s, .stop⟩ := by
    simp only [round, value_bind, hsize, if_pos h, htests, value_pure]
  rw [hvalue]
  refine ⟨?_, by simp, ?_, fun _ => ?_⟩
  · intro call hcall
    obtain rfl := hcalls call hcall
    exact Nat.add_le_add_left (by omega) i
  · refine iff_of_true ?_ hshort
    simp only [round, within_bind, hsize, if_pos h, htests, within_pure, and_true]
    exact ⟨within_getMessageSize le_rfl, within_headerTests (by omega)⟩
  · have hnone : pass? c remote now (slice b i remaining, s.tpReassembler) = none := by
      refine if_neg fun hp => ?_
      have hok := (value_headerTests h.2).mpr hp.2.2
      rw [htests] at hok
      cases hok
    rw [hnone]
    simp

theorem taken_follows (hpos : 0 < remaining) (hb : i + remaining ≤ b.length)
    (h : 8 < Utility.getMessageSize (slice b i remaining) ∧
      Utility.getMessageSize (slice b i remaining) ≤ remaining)
    (htests : (headerTests c i (Utility.getMessageSize (slice b i remaining))).value b = none) :
    Follows c remote now s i remaining b ((round c remote now s i remaining).value b) := by
  have hsize := value_getMessageSize hb
  have hlen : (slice b i remaining).length = remaining := length_slice hb
  have hvalue : (round c remote now s i remaining).value b =
      (takeMessage c remote now s i (Utility.getMessageSize (slice b i remaining))
        (remaining - Utility.getMessageSize (slice b i remaining))).value b := by
    simp only [round, value_bind, hsize, if_pos h, htests]
  have hshort : ShortTail (slice b i remaining) ↔ remaining ≤ 14 := by
    rw [ShortTail, hlen]
    omega
  rw [hvalue]
  refine ⟨?_, ?_, ?_, fun h14 => ?_⟩
  · intro call hcall
    exact takeMessage_calls hcall (by omega)
  · intro i' remaining' h'
    obtain ⟨rfl, rfl⟩ := takeMessage_next h'
    omega
  · simp only [round, within_bind, hsize, if_pos h, htests, within_takeMessage, hshort]
    have h₁ : (getMessageSize i remaining).Within (i + remaining) b := within_getMessageSize le_rfl
    have h₂ : (headerTests c i (Utility.getMessageSize (slice b i remaining))).Within
        (i + remaining) b := within_headerTests (by omega)
    constructor
    · rintro ⟨-, -, h₃⟩
      omega
    · intro h₃
      exact ⟨h₁, h₂, by omega⟩
  · rw [hshort, not_le] at h14
    have hpass := takeMessage_pass c remote now s h14 hb rfl h ((value_headerTests h.2).mp htests)
    rcases hp : pass? c remote now (slice b i remaining, s.tpReassembler) with _ | y
    · rw [hp] at hpass
      intro i' remaining' h'
      exact absurd h' (hpass i' remaining')
    · rw [hp] at hpass
      exact ⟨_, _, hpass.1, hpass.2⟩

/-- **What a round does.** -/
theorem round_follows (hpos : 0 < remaining) (hb : i + remaining ≤ b.length) :
    Follows c remote now s i remaining b ((round c remote now s i remaining).value b) := by
  by_cases h : 8 < Utility.getMessageSize (slice b i remaining) ∧
      Utility.getMessageSize (slice b i remaining) ≤ remaining
  · rcases htests : (headerTests c i (Utility.getMessageSize (slice b i remaining))).value b with
      _ | calls
    · exact taken_follows hpos hb h htests
    · exact refused_follows hb h htests
  · exact badLength_follows hpos hb h

/-- A round after which the loop ends reads behind the bytes that are left iff they are a short
tail. -/
theorem Follows.clear_of_end {r : Round A} (h : Follows c remote now s i remaining b r)
    (hend : ∀ i' remaining', r.next = .test i' remaining' → remaining' = 0) :
    Clear c remote now (slice b i remaining, s.tpReassembler) ↔
      ¬ ShortTail (slice b i remaining) := by
  rw [clear_iff]
  constructor
  · intro hclear
    exact hclear.1
  · intro hshort
    refine ⟨hshort, fun y hy => ?_⟩
    have hway := h.way hshort
    rw [hy] at hway
    obtain ⟨i', remaining', hnext, rfl⟩ := hway
    rw [hend i' remaining' hnext, slice_zero]
    exact clear_nil _

/-- A round after which the loop goes on. -/
theorem Follows.clear_of_test {r : Round A} (h : Follows c remote now s i remaining b r)
    {i' remaining' : ℕ} (hnext : r.next = .test i' remaining') (hpos : 0 < remaining') :
    Clear c remote now (slice b i remaining, s.tpReassembler) ↔ ¬ ShortTail (slice b i remaining) ∧
        Clear c remote now (slice b i' remaining', r.state.tpReassembler) := by
  rw [clear_iff]
  refine and_congr_right fun hshort => ?_
  have hway := h.way hshort
  rcases hp : pass? c remote now (slice b i remaining, s.tpReassembler) with _ | y
  · rw [hp] at hway
    have := hway i' remaining' hnext
    omega
  · rw [hp] at hway
    obtain ⟨i'', remaining'', hnext', rfl⟩ := hway
    obtain ⟨rfl, rfl⟩ := Next.test.inj (hnext.symm.trans hnext')
    simp

/-- **What the loop does**: it ends, its calls and positions stay within the bytes that it was started
with, and it reads behind them iff it gets to a short tail. -/
theorem loop_spec (c : Config) (remote : A × UInt16) (now : ℤ) (s : State A) {fuel : ℕ}
    (hpos : 0 < remaining) (hfuel : remaining ≤ fuel) (hb : i + remaining ≤ b.length) :
    (∃ out, (loop c remote now fuel s i remaining).value b = some out ∧
        (∀ call ∈ out.calls, call.Within (i + remaining)) ∧
        ∀ p ∈ out.positions, p.1 + p.2 ≤ i + remaining) ∧
      ((loop c remote now fuel s i remaining).Within (i + remaining) b ↔
        Clear c remote now (slice b i remaining, s.tpReassembler)) := by
  induction fuel generalizing s i remaining with
  | zero => omega
  | succ fuel ih =>
      have h : Follows c remote now s i remaining b ((round c remote now s i remaining).value b) :=
        round_follows hpos hb
      have hreads := h.reads
      rw [loop]
      simp only [value_bind, within_bind, hreads]
      rcases hnext : ((round c remote now s i remaining).value b).next with
        ⟨i', remaining'⟩ | _ | fault
      · obtain ⟨hle, hlt, heq⟩ := h.position i' remaining' hnext
        by_cases hpos' : 0 < remaining'
        · -- the loop goes on with the next message
          obtain ⟨⟨out, hout, hcalls, hpositions⟩, hwithin⟩ :=
            ih ((round c remote now s i remaining).value b).state hpos' (by omega)
              ((heq hpos').trans_le hb)
          rw [heq hpos'] at hcalls hpositions hwithin
          simp only [if_pos hpos', value_bind, within_bind, value_pure,
            within_pure, and_true, hout, hwithin, Option.map_some]
          refine ⟨⟨_, rfl, ?_, ?_⟩, (h.clear_of_test hnext hpos').symm⟩
          · intro call hcall
            rcases mem_append.mp hcall with hcall | hcall
            · exact h.calls call hcall
            · exact hcalls call hcall
          · intro p hp
            rcases mem_cons.mp hp with rfl | hp
            · exact le_rfl
            · exact hpositions p hp
        · simp only [if_neg hpos', value_pure, within_pure, and_true]
          refine ⟨⟨_, rfl, h.calls, by simpa using hle⟩, (h.clear_of_end ?_).symm⟩
          intro i'' remaining'' hnext'
          obtain ⟨rfl, rfl⟩ := Next.test.inj (hnext.symm.trans hnext')
          omega
      · simp only [value_pure, within_pure, and_true]
        exact ⟨⟨_, rfl, h.calls, by simp⟩, (h.clear_of_end (by simp [hnext])).symm⟩
      · simp only [value_pure, within_pure, and_true]
        exact ⟨⟨_, rfl, h.calls, by simp⟩, (h.clear_of_end (by simp [hnext])).symm⟩

/-- **Reads, calls and loop variables stay within the datagram iff the loop gets to no short tail.**
For every datagram and every state the loop ends, and the calls and the loop variables stay within it
in any case.
Source: `udp_server_endpoint_impl.cpp`, `on_message_received_unlocked` -/
theorem datagram_reads_iff (c : Config) (remote : A × UInt16) (now : ℤ) (s : State A)
    (g : Datagram) :
    (∃ out, (onMessageReceivedUnlocked c remote now true false s g.bytes).value g.buffer =
          some out ∧
        (onMessageReceivedUnlocked c remote now true false s g.bytes).Within g.bytes g.buffer ∧
        (∀ call ∈ out.calls, call.Within g.bytes) ∧ ∀ p ∈ out.positions, p.1 + p.2 ≤ g.bytes) ↔
      Clear c remote now (g.received, s.tpReassembler) := by
  have hpos := g.pos
  have hcond : ((true : Bool) = true) ∧ (!false) = true ∧ 0 < g.bytes := ⟨rfl, rfl, hpos⟩
  have hb : 0 + g.bytes ≤ g.buffer.length := by
    rw [g.length_buffer, Nat.zero_add]
    exact g.bytes_le
  obtain ⟨⟨out, hout, hcalls, hpositions⟩, hwithin⟩ :=
    loop_spec c remote now s hpos le_rfl hb
  rw [Nat.zero_add] at hcalls hpositions hwithin
  have hreceived : g.received = slice g.buffer 0 g.bytes := rfl
  rw [onMessageReceivedUnlocked, if_pos hcond, hreceived, ← hwithin]
  constructor
  · rintro ⟨-, -, hreads, -⟩
    exact hreads
  · intro hreads
    exact ⟨out, hout, hreads, hcalls, hpositions⟩

/-- A message of one byte behind its length field, in a buffer that is otherwise empty. -/
def nineBytes : Datagram where
  buffer := [0x11, 0x11, 0x00, 0x01, 0x00, 0x00, 0x00, 0x01, 0x00] ++ List.replicate 1407 0
  bytes := 9
  length_buffer := by rw [length_append, length_replicate]; rfl
  pos := by norm_num
  bytes_le := by norm_num

/-- The type of the message in the datagram of 9 bytes is read at position 14. -/
theorem nineBytes_read_behind :
    ¬ (onMessageReceivedUnlocked ⟨false, fun _ => 0xFFFF, fun _ _ _ => false⟩ ((0 : ℕ), 30509) 0 true
        false ⟨∅, TpReassembler.new 5000⟩ nineBytes.bytes).Within nineBytes.bytes
      nineBytes.buffer := by
  decide +kernel

/-! ### Datagrams of well-formed messages -/

/-- A SOME/IP message that is neither a segment nor one of the service discovery. -/
structure WellFormed (m : List UInt8) : Prop where
  header : 16 ≤ m.length
  length : Tp.readUint32Be m 4 = m.length - 8
  valid : Utility.HeaderValid m
  noTp : tpFlagIsSet (byteAt m 14) = false
  noSd : Tp.readUint16Be m 0 ≠ 0xFFFF

/-- The bytes that the routing host gets. -/
def Call.delivered (buffer : List UInt8) : Call → Option (List UInt8)
  | .onMessage first count => some (slice buffer first count)
  | .onAssembled message => some message
  | .onError _ _ | .processTpMessage _ _ => none

theorem byteAt_append {m rest : List UInt8} {k : ℕ} (h : k < m.length) :
    byteAt (m ++ rest) k = byteAt m k :=
  Tp.byteAt_eq_of_getElem? (List.getElem?_append_left h)

/-- A well-formed message in front is handed on, and the loop goes on behind it. -/
theorem round_message (c : Config) (remote : A × UInt16) (now : ℤ) (s : State A)
    {m rest : List UInt8} (hm : WellFormed m) (hrest : slice b i remaining = m ++ rest)
    (hb : i + remaining ≤ b.length) (h32 : b.length < 2 ^ 32) :
    ∃ clients, (round c remote now s i remaining).value b =
      ⟨[.onMessage i m.length], ⟨clients, s.tpReassembler⟩,
        .test (i + m.length) (remaining - m.length)⟩ := by
  have hheader := hm.header
  have hlen := congrArg List.length hrest
  rw [length_slice hb, length_append] at hlen
  have hread : Tp.readUint32Be (m ++ rest) 4 = Tp.readUint32Be m 4 := by
    unfold Tp.readUint32Be
    rw [byteAt_append (by omega), byteAt_append (by omega), byteAt_append (by omega),
      byteAt_append (by omega)]
  have hservice : Tp.readUint16Be (m ++ rest) 0 = Tp.readUint16Be m 0 := by
    unfold Tp.readUint16Be
    rw [byteAt_append (by omega), byteAt_append (by omega)]
  have hsize : Utility.getMessageSize (slice b i remaining) = m.length := by
    rw [hrest, Utility.getMessageSize, if_pos (by rw [length_append]; omega), hread, hm.length,
      Tp.u32_of_lt (by omega)]
    omega
  have hok : HeaderOk c (slice b i remaining) := by
    obtain ⟨hversion, htype, hcode⟩ := hm.valid
    unfold HeaderOk
    rw [hrest, byteAt_append (by omega), byteAt_append (by omega), byteAt_append (by omega),
      Tp.tpFlagUnset_of_not_set _ hm.noTp, hm.noTp]
    exact ⟨hversion, htype, hcode, rfl⟩
  have htests : (headerTests c i m.length).value b = none :=
    (value_headerTests (by omega)).mpr fun _ => hok
  obtain ⟨clients, htake⟩ := takeMessage_eq c remote now s i m.length (remaining - m.length) b
    (by omega : 14 < remaining)
  have hfits : 8 < m.length ∧ m.length ≤ remaining := by omega
  refine ⟨clients, ?_⟩
  simp only [round, value_bind, value_getMessageSize hb, hsize, if_pos hfits, htests, htake]
  rw [hrest, byteAt_append (by omega), hm.noTp, hservice, if_pos (Or.inl hm.noSd)]
  rfl

/-- The loop hands on the messages one after the other. -/
theorem loop_messages {fuel : ℕ} {ms : List (List UInt8)} (hms : ∀ m ∈ ms, WellFormed m)
    (hslice : slice b i remaining = ms.flatten) (hpos : 0 < remaining) (hfuel : remaining ≤ fuel)
    (hb : i + remaining ≤ b.length) (h32 : b.length < 2 ^ 32) :
    ∃ out, (loop c remote now fuel s i remaining).value b = some out ∧ out.undefined = none ∧
      out.calls.map (Call.delivered b) = ms.map some := by
  induction ms generalizing fuel s i remaining with
  | nil =>
      have hlen := congrArg List.length hslice
      rw [length_slice hb] at hlen
      simp only [flatten_nil, length_nil] at hlen
      omega
  | cons m ms ih =>
      have hm := hms m mem_cons_self
      have hmpos := hm.header
      obtain ⟨fuel, rfl⟩ : ∃ k, fuel = k + 1 := ⟨fuel - 1, by omega⟩
      have hlen := congrArg List.length hslice
      rw [length_slice hb, flatten_cons, length_append] at hlen
      obtain ⟨clients, hround⟩ := round_message c remote now s hm hslice hb h32
      have hdelivered : slice b i m.length = m := by
        have htake := congrArg (List.take m.length) hslice
        rw [flatten_cons, take_left, slice, take_take,
          Nat.min_eq_left (by omega)] at htake
        exact htake
      have hbehind : slice b (i + m.length) (remaining - m.length) = ms.flatten := by
        have hdrop := congrArg (List.drop m.length) hslice
        rw [flatten_cons, drop_left] at hdrop
        rw [← hdrop, slice, slice, drop_take, drop_drop]
      rw [loop]
      simp only [value_bind, hround]
      by_cases hmore : 0 < remaining - m.length
      · have hfuel' : remaining - m.length ≤ fuel := by omega
        obtain ⟨out, hout, hundefined, hcalls⟩ := ih (s := ⟨clients, s.tpReassembler⟩)
          (fun m' hm' => hms m' (mem_cons_of_mem m hm')) hbehind hmore hfuel' (by omega)
        simp only [if_pos hmore, value_bind, hout, value_pure, Option.map_some]
        refine ⟨_, rfl, hundefined, ?_⟩
        simp only [singleton_append, map_cons, Call.delivered, hdelivered, hcalls]
      · have hnil : ms = [] := by
          rcases ms with _ | ⟨m', ms⟩
          · rfl
          · have := (hms m' (by simp)).header
            simp only [flatten_cons, length_append] at hlen
            omega
        simp only [if_neg hmore, value_pure]
        refine ⟨_, rfl, rfl, ?_⟩
        simp [hnil, Call.delivered, hdelivered]

/-- **A datagram of well-formed messages is handed on message by message**: the calls of the loop are
one for each message, in order and with exactly its bytes, and there is no other call.
Source: `udp_server_endpoint_impl.cpp`, `on_message_received_unlocked` -/
theorem datagram_messages (c : Config) (remote : A × UInt16) (now : ℤ) (s : State A) (g : Datagram)
    (ms : List (List UInt8)) (hms : ∀ m ∈ ms, WellFormed m) (hg : g.received = ms.flatten) :
    ∃ out, (onMessageReceivedUnlocked c remote now true false s g.bytes).value g.buffer = some out ∧
      out.undefined = none ∧ out.calls.map (Call.delivered g.buffer) = ms.map some := by
  have hpos := g.pos
  have hcond : ((true : Bool) = true) ∧ (!false) = true ∧ 0 < g.bytes := ⟨rfl, rfl, hpos⟩
  have hlen := g.length_buffer
  have hle := g.bytes_le
  rw [onMessageReceivedUnlocked, if_pos hcond]
  exact loop_messages hms hg hpos le_rfl (by omega) (by omega)

/-- A request without payload. -/
def bareRequest : List UInt8 :=
  [0x11, 0x11, 0x00, 0x01, 0x00, 0x00, 0x00, 0x08, 0x00, 0x01, 0x00, 0x01, 0x01, 0x01, 0x00, 0x00]

/-- Two such requests in one datagram. -/
def twoRequests : Datagram where
  buffer := bareRequest ++ bareRequest ++ List.replicate 1384 0
  bytes := 32
  length_buffer := by rw [length_append, length_replicate]; rfl
  pos := by norm_num
  bytes_le := by norm_num

theorem twoRequests_delivered :
    ∃ out, (onMessageReceivedUnlocked ⟨false, fun _ => 0xFFFF, fun _ _ _ => false⟩ ((0 : ℕ), 30509) 0
        true false ⟨∅, TpReassembler.new 5000⟩ twoRequests.bytes).value twoRequests.buffer =
        some out ∧ out.undefined = none ∧
      out.calls.map (Call.delivered twoRequests.buffer) = [bareRequest, bareRequest].map some := by
  have hwell : WellFormed bareRequest :=
    ⟨by decide, by decide, by decide, by decide, by decide⟩
  refine datagram_messages _ _ _ _ twoRequests [bareRequest, bareRequest] ?_ (by decide +kernel)
  intro m hm
  obtain rfl : m = bareRequest := by simpa using hm
  exact hwell

end rounds

end SomeipTunnel.Endpoint.Udp
