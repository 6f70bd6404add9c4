import SomeipTunnel.Someip.Deserializer

/-!
# SOME/IP messages on the wire

A message is a header of sixteen bytes and a payload. The length in the header counts the last eight
bytes of the header and the payload, and `message_impl::deserialize` hands the payload's part of it to
the payload as a capacity: the length less eight, in 32 bits.

* `run_message`: what is read from a byte string of sixteen bytes or more.
* `codec_exact`: a byte string is accepted as its length field says, and reproduced; every message is
  read back. A length below eight wraps to a capacity that no byte string fills which can be
  received: sizes have 32 bits there (`length_t`).

`std::vector::reserve` is taken to give an empty vector exactly the capacity that is asked for.
-/

namespace SomeipTunnel.Someip

open Codec Cursor Cursor.Parse List

/-- Source: `defines.hpp`, `VSOMEIP_SOMEIP_HEADER_SIZE` -/
def someipHeaderSize : UInt32 := 8

/-- The fields that are sent.
Source: `message_header_impl.hpp`, `message_header_impl`; the type and the code are enumerations over
a byte that are cast from any byte -/
structure Header where
  service : UInt16
  method : UInt16
  length : UInt32
  client : UInt16
  session : UInt16
  protocolVersion : UInt8
  interfaceVersion : UInt8
  type : UInt8
  code : UInt8
deriving DecidableEq, Repr

/-- Source: `message_impl.hpp`, `message_impl`; the payload is a pointer -/
structure Message where
  header : Header
  payload : Option (List UInt8)
deriving DecidableEq, Repr

/-! ### Writing -/

/-- Source: `message_header_impl::serialize`; the length is that of the owner, not the field -/
def Header.serialize (h : Header) (ownerLength : UInt32) : List UInt8 :=
  serialize16 h.service ++ (serialize16 h.method ++ (serialize32 ownerLength false ++
    (serialize16 h.client ++ (serialize16 h.session ++ (serialize8 h.protocolVersion ++
      (serialize8 h.interfaceVersion ++ (serialize8 h.type ++ serialize8 h.code)))))))

namespace Message

/-- Source: `message_impl::get_length`, `payload_impl::get_length` -/
def getLength (m : Message) : UInt32 :=
  someipHeaderSize +
    match m.payload with
    | some data => UInt32.ofNat data.length
    | none => 0

/-- Source: `message_impl::serialize` -/
def serialize (m : Message) : List UInt8 :=
  m.header.serialize m.getLength ++
    match m.payload with
    | some data => data
    | none => []

end Message

/-! ### Reading -/

/-- Source: `message_header_impl::deserialize` -/
def deserializeHeader : Parse Header := do
  let service ← deserialize16
  let method ← deserialize16
  let length ← deserialize32 false
  let client ← deserialize16
  let session ← deserialize16
  let protocolVersion ← deserialize8
  let interfaceVersion ← deserialize8
  let type ← deserialize8
  let code ← deserialize8
  return ⟨service, method, length, client, session, protocolVersion, interfaceVersion, type, code⟩

/-- Source: `message_impl::deserialize`; `deserializer::deserialize_message` gives the message or
none -/
def deserializeMessage : Parse Message := do
  let header ← deserializeHeader
  let data ← deserializeVector (header.length - someipHeaderSize).toNat
  return ⟨header, some data⟩

/-! ### The decoders that they follow -/

/-- The header of a byte string. -/
def header : Decoder Header := do
  let service ← short
  let method ← short
  let length ← long false
  let client ← short
  let session ← short
  let protocolVersion ← byte
  let interfaceVersion ← byte
  let type ← byte
  let code ← byte
  return ⟨service, method, length, client, session, protocolVersion, interfaceVersion, type, code⟩

/-- The message at the front of a byte string. -/
def message : Decoder Message := do
  let header ← header
  let data ← Codec.bytes (header.length - someipHeaderSize).toNat
  return ⟨header, some data⟩

theorem follows_deserializeHeader : Follows deserializeHeader header :=
  follows_deserialize16.bind fun _ => follows_deserialize16.bind fun _ =>
    (follows_deserialize32 false).bind fun _ => follows_deserialize16.bind fun _ =>
      follows_deserialize16.bind fun _ => follows_deserialize8.bind fun _ =>
        follows_deserialize8.bind fun _ => follows_deserialize8.bind fun _ =>
          follows_deserialize8.bind fun _ => follows_pure _

theorem follows_deserializeMessage : Follows deserializeMessage message :=
  follows_deserializeHeader.bind fun _ => (follows_bytes _).bind fun _ => follows_pure _

theorem reads_header (h : Header) : Reads header (h.serialize h.length) h :=
  (reads_short _).bind <| (reads_short _).bind <| (reads_long _).bind <| (reads_short _).bind <|
    (reads_short _).bind <| (reads_byte _).bind <| (reads_byte _).bind <| (reads_byte _).bind <|
      (reads_byte _).check (reads_pure h)

theorem exact_header : Exact header fun h => h.serialize h.length := by
  intro data h rest hrun
  obtain ⟨service, d₁, h₁, hrun⟩ := run_bind_eq_some.mp hrun
  obtain ⟨method, d₂, h₂, hrun⟩ := run_bind_eq_some.mp hrun
  obtain ⟨length, d₃, h₃, hrun⟩ := run_bind_eq_some.mp hrun
  obtain ⟨client, d₄, h₄, hrun⟩ := run_bind_eq_some.mp hrun
  obtain ⟨session, d₅, h₅, hrun⟩ := run_bind_eq_some.mp hrun
  obtain ⟨protocolVersion, d₆, h₆, hrun⟩ := run_bind_eq_some.mp hrun
  obtain ⟨interfaceVersion, d₇, h₇, hrun⟩ := run_bind_eq_some.mp hrun
  obtain ⟨type, d₈, h₈, hrun⟩ := run_bind_eq_some.mp hrun
  obtain ⟨code, d₉, h₉, hrun⟩ := run_bind_eq_some.mp hrun
  obtain ⟨rfl, rfl⟩ := Prod.mk.inj (Option.some.inj hrun)
  rw [exact_short _ _ _ h₁, exact_short _ _ _ h₂, exact_long _ _ _ h₃, exact_short _ _ _ h₄,
    exact_short _ _ _ h₅, exact_byte _ _ _ h₆, exact_byte _ _ _ h₇, exact_byte _ _ _ h₈,
    exact_byte _ _ _ h₉]
  simp only [Header.serialize, append_assoc]

@[simp] theorem length_serialize (h : Header) (l : UInt32) : (h.serialize l).length = 16 := by
  simp [Header.serialize, serialize8, serialize16, serialize32]

theorem takes_header : Takes 16 header :=
  takes_short.bind fun _ => takes_short.bind fun _ => takes_long.bind fun _ =>
    takes_short.bind fun _ => takes_short.bind fun _ => takes_byte.bind fun _ =>
      takes_byte.bind fun _ => takes_byte.bind fun _ => takes_byte.bind fun _ => takes_pure _

/-! ### Byte strings -/

/-- The length field of a byte string. -/
def lengthField (data : List UInt8) : ℕ := ofBytes ((data.drop 4).take 4)

/-- The number of bytes behind the header that a message with the given length takes. -/
def capacity (length : ℕ) : ℕ := (length + 2 ^ 32 - 8) % 2 ^ 32

theorem capacity_eq {length : ℕ} (h : length < 2 ^ 32) :
    capacity length = if 8 ≤ length then length - 8 else length + 2 ^ 32 - 8 := by
  unfold capacity
  split_ifs with h8
  · have : length + 2 ^ 32 - 8 = length - 8 + 2 ^ 32 := by omega
    rw [this, Nat.add_mod_right, Nat.mod_eq_of_lt (by omega)]
  · exact Nat.mod_eq_of_lt (by omega)

theorem toNat_sub_headerSize (length : UInt32) :
    (length - someipHeaderSize).toNat = capacity length.toNat := by
  rw [UInt32.toNat_sub, capacity]
  congr 1
  change 2 ^ 32 - 8 + length.toNat = length.toNat + 2 ^ 32 - 8
  omega

variable {data : List UInt8}

/-- The header of a byte string that has one. -/
theorem exists_header (h : 16 ≤ data.length) : ∃ hd, header.run data = some (hd, data.drop 16) ∧
      data = hd.serialize hd.length ++ data.drop 16 ∧ hd.length.toNat = lengthField data := by
  obtain ⟨hd, hrun⟩ := takes_header data h
  have hdata := exact_header data hd _ hrun
  refine ⟨hd, hrun, hdata, ?_⟩
  have hfield : (data.drop 4).take 4 = toBytes 4 hd.length.toNat := by
    rw [hdata]
    rfl
  rw [lengthField, hfield, ofBytes_toBytes]
  exact (Nat.mod_eq_of_lt hd.length.toNat_lt).symm

/-- **What is read from a byte string with a header**: the payload has as many bytes as the length
field gives, less eight, in 32 bits. -/
theorem run_message (h : 16 ≤ data.length) :
    ∃ hd, data = hd.serialize hd.length ++ data.drop 16 ∧ hd.length.toNat = lengthField data ∧
      message.run data = if capacity (lengthField data) ≤ data.length - 16 then
          some (⟨hd, some ((data.drop 16).take (capacity (lengthField data)))⟩,
            data.drop (16 + capacity (lengthField data))) else none := by
  obtain ⟨hd, hrun, hdata, hlength⟩ := exists_header h
  refine ⟨hd, hdata, hlength, ?_⟩
  have hbytes := run_bytes (hd.length - someipHeaderSize).toNat (data.drop 16)
  rw [toNat_sub_headerSize, hlength, length_drop] at hbytes
  by_cases hcap : capacity (lengthField data) ≤ data.length - 16
  · rw [if_pos hcap] at hbytes ⊢
    rw [drop_drop] at hbytes
    refine run_bind_eq_some.mpr ⟨hd, _, hrun, run_bind_eq_some.mpr ⟨_, _, ?_, rfl⟩⟩
    rw [toNat_sub_headerSize, hlength]
    exact hbytes
  · rw [if_neg hcap] at hbytes ⊢
    rw [message, StateT.run_bind, hrun, Option.bind_eq_bind, Option.bind_some, StateT.run_bind,
      toNat_sub_headerSize, hlength, hbytes]
    rfl

theorem run_message_of_short (h : data.length < 16) : message.run data = none := by
  rcases hrun : message.run data with - | ⟨m, rest⟩
  · rfl
  · obtain ⟨hd, mid, hhd, -⟩ := run_bind_eq_some.mp hrun
    have hlength := congrArg List.length (exact_header data hd mid hhd)
    rw [length_append, length_serialize] at hlength
    omega

/-! ### The codec -/

/-- The byte string is accepted as its length field says, and what is accepted is reproduced. -/
def AcceptedExactly (data : List UInt8) : Prop :=
  ((∃ m c, deserializeMessage (start data) = .ok (some m, c)) ↔
    16 ≤ data.length ∧ 8 ≤ lengthField data ∧ lengthField data ≤ data.length - 8) ∧
  ∀ m c, deserializeMessage (start data) = .ok (some m, c) →
    m.serialize = data.take (lengthField data + 8)

/-- The message is read back from its bytes, and all of them are taken. -/
def ReadBack (m : Message) : Prop :=
  ∃ c, deserializeMessage (start m.serialize) =
    .ok (some ⟨{ m.header with length := m.getLength }, some (m.payload.getD [])⟩, c) ∧
      c.remaining = 0

variable {m : Message}

/-- A message is accepted iff the decoder gives it. -/
theorem deserializeMessage_eq : (∃ c, deserializeMessage (start data) = .ok (some m, c)) ↔
      ∃ rest, message.run data = some (m, rest) := by
  obtain ⟨c, hrun, -⟩ := follows_deserializeMessage.start data
  rw [hrun]
  rcases message.run data with - | ⟨m', rest⟩
  · simp
  · simp

theorem lengthField_lt (data : List UInt8) : lengthField data < 2 ^ 32 := by
  have hlt := ofBytes_lt ((data.drop 4).take 4)
  have hle : ((data.drop 4).take 4).length ≤ 4 := length_take_le _ _
  exact hlt.trans_le (Nat.pow_le_pow_right (by decide) hle)

/-- A byte string is accepted iff it has a header and the payload fits. -/
theorem accepted_iff (data : List UInt8) :
    (∃ m c, deserializeMessage (start data) = .ok (some m, c)) ↔
      16 ≤ data.length ∧ capacity (lengthField data) ≤ data.length - 16 := by
  simp only [deserializeMessage_eq]
  by_cases h : 16 ≤ data.length
  · obtain ⟨hd, -, -, hrun⟩ := run_message h
    rw [hrun]
    split_ifs with hcap
    · simp [h, hcap]
    · simp [hcap]
  · rw [run_message_of_short (by omega)]
    simp [h]

theorem toNat_getLength (h : 8 + (m.payload.getD []).length < 2 ^ 32) :
    m.getLength.toNat = 8 + (m.payload.getD []).length := by
  have hpayload : (match m.payload with
      | some data => UInt32.ofNat data.length
      | none => 0 : UInt32).toNat = (m.payload.getD []).length := by
    rcases hm : m.payload with - | data
    · rfl
    · rw [hm, Option.getD_some] at h
      exact UInt32.toNat_ofNat_of_lt' (Nat.lt_of_le_of_lt (Nat.le_add_left _ _) h)
  rw [Message.getLength, UInt32.toNat_add, hpayload]
  exact Nat.mod_eq_of_lt h

/-- What is accepted with a length of eight or more is reproduced. -/
theorem serialize_of_accepted {rest : List UInt8} (hrun : message.run data = some (m, rest))
    (h8 : 8 ≤ lengthField data) : m.serialize = data.take (lengthField data + 8) := by
  have h : 16 ≤ data.length := by
    by_contra hshort
    rw [run_message_of_short (by omega)] at hrun
    cases hrun
  obtain ⟨hd, hdata, hlength, hmessage⟩ := run_message h
  have hcapacity := capacity_eq (lengthField_lt data)
  rw [if_pos h8] at hcapacity
  rw [hmessage, hcapacity] at hrun
  split_ifs at hrun with hcap
  obtain ⟨rfl, -⟩ := Prod.mk.inj (Option.some.inj hrun)
  have hlt := lengthField_lt data
  have hpayload : ((data.drop 16).take (lengthField data - 8)).length = lengthField data - 8 := by
    rw [length_take, length_drop]
    omega
  have hget : Message.getLength
      ⟨hd, some ((data.drop 16).take (lengthField data - 8))⟩ = hd.length := by
    apply UInt32.toNat_inj.mp
    rw [toNat_getLength (by rw [Option.getD_some, hpayload]; omega), Option.getD_some, hpayload,
      hlength]
    omega
  have htake : ∀ k, data.take ((hd.serialize hd.length).length + k) =
      hd.serialize hd.length ++ (data.drop 16).take k := by
    intro k
    nth_rewrite 1 [hdata]
    exact take_length_add_append k
  have hsplit : lengthField data + 8 = (hd.serialize hd.length).length + (lengthField data - 8) := by
    rw [length_serialize]
    omega
  rw [hsplit, htake, Message.serialize, hget]

/-- **Byte strings are accepted exactly** as their length field says: one below eight wraps to a
capacity that fewer than 2 ^ 32 bytes do not fill. -/
theorem acceptedExactly_of_lt (h : data.length < 2 ^ 32) : AcceptedExactly data := by
  have hcapacity := capacity_eq (lengthField_lt data)
  unfold AcceptedExactly
  rw [accepted_iff]
  by_cases h8 : 8 ≤ lengthField data
  · rw [if_pos h8] at hcapacity
    refine ⟨?_, fun m c hrun => ?_⟩
    · rw [hcapacity]
      omega
    · obtain ⟨rest, hmessage⟩ := deserializeMessage_eq.mp ⟨c, hrun⟩
      exact serialize_of_accepted hmessage h8
  · rw [if_neg h8] at hcapacity
    have hnot : ¬ (16 ≤ data.length ∧ capacity (lengthField data) ≤ data.length - 16) := by
      rw [hcapacity]
      omega
    refine ⟨iff_of_false hnot (by omega), fun m c hrun => ?_⟩
    exact absurd ((accepted_iff data).mp ⟨m, c, hrun⟩) hnot

/-- Every message whose length fits the length field is read back. -/
theorem readBack (m : Message) (h : 8 + (m.payload.getD []).length < 2 ^ 32) : ReadBack m := by
  have hserialize : m.serialize = Header.serialize { m.header with length := m.getLength }
      m.getLength ++ m.payload.getD [] := by
    rw [Message.serialize]
    rcases m.payload with - | data <;> rfl
  have hlength : (m.getLength - someipHeaderSize).toNat = (m.payload.getD []).length := by
    rw [toNat_sub_headerSize, toNat_getLength h, capacity_eq h, if_pos (Nat.le_add_right _ _),
      Nat.add_sub_cancel_left]
  have hreads : Reads message m.serialize
      ⟨{ m.header with length := m.getLength }, some (m.payload.getD [])⟩ := by
    rw [hserialize]
    refine (reads_header { m.header with length := m.getLength }).bind ?_
    rw [hlength]
    exact (reads_bytes _).check (reads_pure _)
  have hrun := hreads []
  rw [append_nil] at hrun
  obtain ⟨c, hparse, hrest⟩ := follows_deserializeMessage.start m.serialize
  rw [hrun] at hparse hrest
  exact ⟨c, hparse, (hrest _ _ rfl).1⟩

/-- **The codec of messages.** Every byte string that can be received is accepted as its length field
says and reproduced, and every message whose length fits the field is read back. -/
theorem codec_exact (data : List UInt8) (hdata : data.length < 2 ^ 32) (m : Message)
    (hm : 8 + (m.payload.getD []).length < 2 ^ 32) : AcceptedExactly data ∧ ReadBack m :=
  ⟨acceptedExactly_of_lt hdata, readBack m hm⟩

/-- A request with two bytes of payload. -/
def request : Message := ⟨⟨0x1234, 0x0001, 0, 0x0100, 0x0001, 1, 1, 0, 0⟩, some [0xAB, 0xCD]⟩

/-- Its bytes, and the request. -/
theorem codec_exact_request : AcceptedExactly request.serialize ∧ ReadBack request :=
  codec_exact request.serialize (by decide) request (by decide)

end SomeipTunnel.Someip
