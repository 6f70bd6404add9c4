import Mathlib
import SomeipTunnel.Lib.Indexed

/-!
# The routing info command

The routing host tells its applications about clients and service instances with a command that is a
header and a list of entries. An entry is of variable size: the address of the client is there only if
it is specified, the services only for the types of entries that have them, and the size of the client
part stands in front of it only for these.

`RoutingInfoEntry.bytes` is the image of an entry. Writing an entry puts it into the buffer
(`RoutingInfoEntry.writes_serialize`), it is as long as the size function says
(`RoutingInfoEntry.length_bytes`), and reading it gives the entry back
(`RoutingInfoEntry.reads_deserialize`). `routing_info_round_trip` assembles them.

Source: vsomeip/implementation/protocol/src/routing_info_entry.cpp, routing_info_command.cpp,
command.cpp, vsomeip/implementation/protocol/include/protocol.hpp
-/

namespace SomeipTunnel.Protocol

open Indexed List

/-! ### The code -/

/-- Source: `error_e`, as far as this command needs it. -/
inductive Error where
  | notEnoughBytes
  | malformed
  | mismatch
deriving DecidableEq

/-- Source: `routing_info_entry_type_e`. Any byte can be cast to it. -/
inductive EntryType where
  | addClient
  | deleteClient
  | addServiceInstance
  | deleteServiceInstance
  | unknown
  | other (byte : UInt8)
deriving DecidableEq

namespace EntryType

def toByte : EntryType → UInt8
  | addClient => 0x00
  | deleteClient => 0x01
  | addServiceInstance => 0x02
  | deleteServiceInstance => 0x04
  | unknown => 0xff
  | other byte => byte

def ofByte (byte : UInt8) : EntryType :=
  if byte = 0x00 then addClient
  else if byte = 0x01 then deleteClient
  else if byte = 0x02 then addServiceInstance
  else if byte = 0x04 then deleteServiceInstance
  else if byte = 0xff then unknown
  else other byte

/-- Source: `type_ > routing_info_entry_type_e::RIE_DELETE_CLIENT`. -/
def hasServices (type : EntryType) : Bool := deleteClient.toByte < type.toByte

/-- The types of the entries that are sent. -/
def Sent (type : EntryType) : Prop :=
  type ∈ [addClient, deleteClient, addServiceInstance, deleteServiceInstance]

instance (type : EntryType) : Decidable type.Sent := inferInstanceAs (Decidable (_ ∈ _))

end EntryType

/-- Source: `boost::asio::ip::address`. A new one is the unspecified IPv4 address. The scope of an IPv6
address is left out: it is not on the wire. -/
inductive Address where
  | v4 (value : BitVec 32)
  | v6 (value : BitVec 128)
deriving DecidableEq

namespace Address

instance : Inhabited Address := ⟨v4 0⟩

def isUnspecified : Address → Bool
  | v4 value => value = 0
  | v6 value => value = 0

/-- Source: `sizeof(boost::asio::ip::address_v4::bytes_type)` and the same for `address_v6`. -/
def size : Address → ℕ
  | v4 _ => 4
  | v6 _ => 16

def toBytes : Address → List UInt8
  | v4 value => Codec.toBytes 4 value.toNat
  | v6 value => Codec.toBytes 16 value.toNat

end Address

/-- Source: `protocol::service`. -/
structure Service where
  service : UInt16
  inst : UInt16
  major : UInt8
  minor : UInt32
deriving DecidableEq

namespace Service

/-- Source: `sizeof(service_t) + sizeof(instance_t) + sizeof(major_version_t) +
sizeof(minor_version_t)`. -/
def size : ℕ := 2 + 2 + 1 + 4

def serialize (s : Service) : Indexed.Writer Error Unit := do
  put (little 2 s.service.toNat)
  put (little 2 s.inst.toNat)
  put (little 1 s.major.toNat)
  put (little 4 s.minor.toNat)

def deserialize : Reader Error Service := do
  let service ← scalar 2 UInt16.ofNat
  let inst ← scalar 2 UInt16.ofNat
  let major ← scalar 1 UInt8.ofNat
  let minor ← scalar 4 UInt32.ofNat
  return { service, inst, major, minor }

end Service

/-- Source: `routing_info_entry`. -/
structure RoutingInfoEntry where
  type : EntryType
  client : UInt16
  address : Address
  port : UInt16
  services : List Service
deriving DecidableEq

/-- Source: `ROUTING_INFO_ENTRY_HEADER_SIZE`. -/
def routingInfoEntryHeaderSize : ℕ := 7

namespace RoutingInfoEntry

variable (e : RoutingInfoEntry)

def getSize : ℕ :=
  routingInfoEntryHeaderSize + (if e.address.isUnspecified then 0 else e.address.size + 2) +
    (if e.type.hasServices then 4 + 4 + e.services.length * Service.size else 0)

/-- Source: `its_client_size` in `serialize`. -/
def clientSize : ℕ := 2 + if e.address.isUnspecified then 0 else e.address.size + 2

/-- The size of the client part, for the types that have services. -/
def serializeClientSize : Indexed.Writer Error Unit :=
  if e.type.hasServices then put (little 4 e.clientSize) else pure ()

/-- The address and the port, if the address is specified. -/
def serializeAddress : Indexed.Writer Error Unit :=
  if e.address.isUnspecified then pure ()
  else do
    put e.address.toBytes
    put (little 2 e.port.toNat)

/-- The services behind their size, for the types that have services. -/
def serializeServices : Indexed.Writer Error Unit :=
  if e.type.hasServices then do
    let size := e.services.length * Service.size
    failIf (2 ^ 32 - 1 < size) Error.malformed
    put (little 4 size)
    e.services.forM Service.serialize
  else pure ()

def serialize : Indexed.Writer Error Unit := do
  put (little 1 e.type.toByte.toNat)
  -- the size is the overall size without the type and the size field
  let size := e.getSize - 4 - 1
  failIf (2 ^ 32 - 1 < size) Error.malformed
  put (little 4 size)
  e.serializeClientSize
  put (little 2 e.client.toNat)
  e.serializeAddress
  e.serializeServices

/-- An address of the kind that has this size. -/
def readAddress (addressSize : UInt32) : Reader Error Address :=
  if addressSize = 4 then do
    return .v4 (BitVec.ofNat 32 (Codec.ofBytes (← get 4)))
  else if addressSize = 16 then do
    return .v6 (BitVec.ofNat 128 (Codec.ofBytes (← get 16)))
  else throw (.error .malformed)

/-- The address and the port, if the client part has room for more than the client. -/
def deserializeAddress (clientSize : UInt32) : Reader Error (Address × UInt16) :=
  if 2 < clientSize then do
    let address ← readAddress (clientSize - 4)
    let port ← scalar 2 UInt16.ofNat
    return (address, port)
  else return (default, 0)

/-- The size of the client part, which for a client entry is the size of the entry. -/
def deserializeClientSize (type : EntryType) (size : UInt32) : Reader Error UInt32 :=
  if type.hasServices then scalar 4 UInt32.ofNat else pure size

/-- The services that the size in front of them has room for. -/
def deserializeServices (type : EntryType) : Reader Error (List Service) :=
  if type.hasServices then do
    need 4 .notEnoughBytes
    let size ← scalar 4 UInt32.ofNat
    need size.toNat .notEnoughBytes
    times Service.deserialize (size.toNat / Service.size)
  else pure []

def deserialize : Reader Error RoutingInfoEntry := do
  need (1 + 4 + 2) .notEnoughBytes
  let type := EntryType.ofByte (← scalar 1 UInt8.ofNat)
  failIf (type = .unknown) Error.malformed
  let size ← scalar 4 UInt32.ofNat
  let clientSize ← deserializeClientSize type size
  let client ← scalar 2 UInt16.ofNat
  let (address, port) ← deserializeAddress clientSize
  let services ← deserializeServices type
  return { type, client, address, port, services }

end RoutingInfoEntry

/-- Source: `routing_info_command`, with the members of `command`. -/
structure RoutingInfoCommand where
  version : UInt16
  client : UInt16
  size : UInt32
  entries : List RoutingInfoEntry
deriving DecidableEq

/-- Source: `COMMAND_HEADER_SIZE`. -/
def commandHeaderSize : ℕ := 9

/-- Source: `id_e::ROUTING_INFO_ID`. -/
def routingInfoId : UInt8 := 0x05

namespace RoutingInfoCommand

variable (c : RoutingInfoCommand)

/-- The size of the entries. -/
def payloadSize : ℕ := (c.entries.map RoutingInfoEntry.getSize).sum

/-- Source: `command::serialize`. -/
def serializeHeader : Indexed.Writer Error Unit := do
  put (little 1 routingInfoId.toNat)
  put (little 2 c.version.toNat)
  put (little 2 c.client.toNat)
  put (little 4 c.size.toNat)

/-- The header and the entries. -/
def writeAll : Indexed.Writer Error Unit := do
  c.serializeHeader
  c.entries.forM RoutingInfoEntry.serialize

/-- The command with its size set. -/
def sized : RoutingInfoCommand := { c with size := UInt32.ofNat c.payloadSize }

/-- What stands in the buffer, which is resized before. -/
def serialize (buffer : List UInt8) : Except (Failure Error) (List UInt8) :=
  Except.map (fun r => r.2.1) (c.sized.writeAll.run
    (Buffer.resize buffer (commandHeaderSize + c.payloadSize) 0, 0))

/-- Source: `command::deserialize`. -/
def deserializeHeader : Reader Error (UInt16 × UInt16 × UInt32) := do
  let id ← scalar 1 UInt8.ofNat
  failIf (id ≠ routingInfoId) Error.mismatch
  let version ← scalar 2 UInt16.ofNat
  let client ← scalar 2 UInt16.ofNat
  let size ← scalar 4 UInt32.ofNat
  return (version, client, size)

/-- The header, and entries up to the end of the buffer. -/
def readAll (fuel : ℕ) : Reader Error RoutingInfoCommand := do
  need commandHeaderSize .notEnoughBytes
  let (version, client, size) ← deserializeHeader
  let entries ← untilEnd RoutingInfoEntry.deserialize fuel
  return { version, client, size, entries }

/-- A new command reads the buffer. An entry takes seven bytes at least, so that the loop ends before
its fuel does. -/
def deserialize (buffer : List UInt8) : Except (Failure Error) RoutingInfoCommand :=
  Except.map Prod.fst (((readAll (buffer.length + 1)).run buffer).run 0)

end RoutingInfoCommand

/-! ### Entries -/

theorem EntryType.Sent.ofByte_toByte {type : EntryType} (h : type.Sent) :
    EntryType.ofByte type.toByte = type := by
  simp only [EntryType.Sent, mem_cons, not_mem_nil, or_false] at h
  rcases h with rfl | rfl | rfl | rfl <;> rfl

theorem EntryType.Sent.ne_unknown {type : EntryType} (h : type.Sent) : type ≠ .unknown := by
  rintro rfl
  exact absurd h (by decide)

namespace Service

/-- The image of a service. -/
def bytes (s : Service) : List UInt8 :=
  little 2 s.service.toNat ++ (little 2 s.inst.toNat ++
    (little 1 s.major.toNat ++ little 4 s.minor.toNat))

@[simp] theorem length_bytes (s : Service) : s.bytes.length = size := by
  simp [bytes, size]

theorem writes_serialize (s : Service) : Writes s.serialize s.bytes :=
  (writes_put _).then ((writes_put _).then ((writes_put _).then (writes_put _)))

theorem reads_deserialize (s : Service) : Reads deserialize s.bytes s :=
  (reads_uint16 _).bind ((reads_uint16 _).bind ((reads_uint8 _).bind
    ((reads_uint32 _).check (reads_pure _))))

theorem length_flatMap_bytes (l : List Service) : (l.flatMap bytes).length = l.length * size := by
  rw [length_flatMap]
  simp

end Service

theorem Address.length_toBytes (a : Address) : a.toBytes.length = a.size := by
  cases a <;> exact Codec.length_toBytes _ _

theorem Address.lt_clientSize (a : Address) : 2 < UInt32.ofNat (2 + (a.size + 2)) := by
  rcases a with a | a
  · exact (by decide : 2 < UInt32.ofNat 8)
  · exact (by decide : 2 < UInt32.ofNat 20)

theorem Address.clientSize_sub (a : Address) :
    UInt32.ofNat (2 + (a.size + 2)) - 4 = UInt32.ofNat a.size := by
  rcases a with a | a
  · exact (by decide : UInt32.ofNat 8 - 4 = UInt32.ofNat 4)
  · exact (by decide : UInt32.ofNat 20 - 4 = UInt32.ofNat 16)

namespace RoutingInfoEntry

variable {e : RoutingInfoEntry}

/-- The image of the size of the client part. -/
def clientSizeBytes (e : RoutingInfoEntry) : List UInt8 :=
  if e.type.hasServices then little 4 e.clientSize else []

/-- The image of the address and the port. -/
def addressBytes (e : RoutingInfoEntry) : List UInt8 :=
  if e.address.isUnspecified then [] else e.address.toBytes ++ little 2 e.port.toNat

/-- The image of the services. -/
def servicesBytes (e : RoutingInfoEntry) : List UInt8 :=
  if e.type.hasServices then
    little 4 (e.services.length * Service.size) ++ e.services.flatMap Service.bytes
  else []

/-- The image of an entry. -/
def bytes (e : RoutingInfoEntry) : List UInt8 :=
  little 1 e.type.toByte.toNat ++ (little 4 (e.getSize - 4 - 1) ++
    (e.clientSizeBytes ++ (little 2 e.client.toNat ++ (e.addressBytes ++ e.servicesBytes))))

/-- A client entry has no services, an entry without an address has no port. -/
structure WellFormed (e : RoutingInfoEntry) : Prop where
  type : e.type.Sent
  services : e.type.hasServices = false → e.services = []
  address : e.address.isUnspecified → e.address = default ∧ e.port = 0

instance (e : RoutingInfoEntry) : Decidable e.WellFormed :=
  decidable_of_iff (e.type.Sent ∧ (e.type.hasServices = false → e.services = []) ∧
      (e.address.isUnspecified → e.address = default ∧ e.port = 0))
    ⟨fun ⟨h₁, h₂, h₃⟩ => ⟨h₁, h₂, h₃⟩, fun h => ⟨h.type, h.services, h.address⟩⟩

theorem length_clientSizeBytes : e.clientSizeBytes.length =
    if e.type.hasServices then 4 else 0 := by
  rw [clientSizeBytes]
  split_ifs
  · exact length_little _ _
  · rfl

theorem length_addressBytes : e.addressBytes.length =
    if e.address.isUnspecified then 0 else e.address.size + 2 := by
  rw [addressBytes]
  split_ifs
  · rfl
  · rw [length_append, Address.length_toBytes, length_little]

theorem length_servicesBytes : e.servicesBytes.length =
    if e.type.hasServices then 4 + e.services.length * Service.size else 0 := by
  rw [servicesBytes]
  split_ifs
  · rw [length_append, length_little, Service.length_flatMap_bytes]
  · rfl

/-- The size function gives the length of the image. -/
theorem length_bytes : e.bytes.length = e.getSize := by
  simp only [bytes, getSize, length_append, length_little, length_clientSizeBytes,
    length_addressBytes, length_servicesBytes, routingInfoEntryHeaderSize]
  split_ifs <;> omega

theorem headerSize_le_getSize : routingInfoEntryHeaderSize ≤ e.getSize := by
  rw [getSize, Nat.add_assoc]
  exact Nat.le_add_right _ _

theorem clientSize_le_getSize : e.clientSize + 5 ≤ e.getSize := by
  rw [clientSize, getSize, routingInfoEntryHeaderSize]
  omega

theorem services_le_getSize (h : e.type.hasServices = true) :
    e.services.length * Service.size ≤ e.getSize := by
  rw [getSize, if_pos h]
  omega

/-! ### Writing an entry -/

theorem writes_serializeServices (h : e.getSize < 2 ^ 32) :
    Writes e.serializeServices e.servicesBytes := by
  rw [serializeServices, servicesBytes]
  split_ifs with htype
  · have hle := services_le_getSize htype
    have hcheck : ¬ 2 ^ 32 - 1 < e.services.length * Service.size := by omega
    have hlist := writes_forM (l := e.services) fun s _ => s.writes_serialize
    exact (writes_failIf Error.malformed hcheck).then ((writes_put _).then hlist)
  · exact writes_pure

theorem writes_serializeAddress : Writes e.serializeAddress e.addressBytes := by
  rw [serializeAddress, addressBytes]
  split_ifs
  · exact writes_pure
  · exact (writes_put _).then (writes_put _)

theorem writes_serializeClientSize : Writes e.serializeClientSize e.clientSizeBytes := by
  rw [serializeClientSize, clientSizeBytes]
  split_ifs
  · exact writes_put _
  · exact writes_pure

/-- The code writes the image, if the size fits. -/
theorem writes_serialize (h : e.getSize < 2 ^ 32) : Writes e.serialize e.bytes := by
  have hcheck : ¬ 2 ^ 32 - 1 < e.getSize - 4 - 1 := by omega
  refine (writes_put _).then ((writes_failIf Error.malformed hcheck).then ?_)
  refine (writes_put _).then (writes_serializeClientSize.then ((writes_put _).then ?_))
  exact writes_serializeAddress.then (writes_serializeServices h)

/-! ### Reading an entry -/

/-- An address is read back from its bytes, whose number tells the kind. -/
theorem reads_readAddress (a : Address) :
    Reads (readAddress (UInt32.ofNat a.size)) a.toBytes a := by
  have hget := reads_get (ε := Error) a.toBytes
  rw [a.length_toBytes] at hget
  rcases a with a | a
  · refine hget.check ?_
    have hvalue : Codec.ofBytes (Address.v4 a).toBytes = a.toNat :=
      (Codec.ofBytes_toBytes _ _).trans (Nat.mod_eq_of_lt a.isLt)
    rw [hvalue, BitVec.ofNat_toNat, BitVec.setWidth_eq]
    exact reads_pure _
  · refine hget.check ?_
    have hvalue : Codec.ofBytes (Address.v6 a).toBytes = a.toNat :=
      (Codec.ofBytes_toBytes _ _).trans (Nat.mod_eq_of_lt a.isLt)
    rw [hvalue, BitVec.ofNat_toNat, BitVec.setWidth_eq]
    exact reads_pure _

/-- The size of the client part tells whether there is an address, and which kind. -/
theorem reads_deserializeAddress (h : e.WellFormed) :
    Reads (deserializeAddress (UInt32.ofNat e.clientSize)) e.addressBytes (e.address, e.port) := by
  rw [addressBytes, clientSize]
  by_cases hno : e.address.isUnspecified = true
  · obtain ⟨haddress, hport⟩ := h.address hno
    rw [if_pos hno, if_pos hno, haddress, hport]
    exact reads_pure _
  · rw [if_neg hno, if_neg hno]
    rw [deserializeAddress, if_pos e.address.lt_clientSize, e.address.clientSize_sub]
    exact (reads_readAddress _).bind ((reads_uint16 _).check (reads_pure _))

theorem reads_deserializeServices (h : e.WellFormed) (hsize : e.getSize < 2 ^ 32) :
    Reads (deserializeServices e.type) e.servicesBytes e.services := by
  rw [deserializeServices, servicesBytes]
  split_ifs with htype
  · have hlt := (services_le_getSize htype).trans_lt hsize
    have hnat : (UInt32.ofNat (e.services.length * Service.size)).toNat =
        e.services.length * Service.size := UInt32.toNat_ofNat_of_lt' hlt
    have hlist := reads_times (l := e.services) fun s _ => s.reads_deserialize
    refine Reads.need (Reads.bind (reads_size hlt) ?_) _ ?_
    · rw [hnat, Nat.mul_div_cancel _ (by decide)]
      exact hlist.need _ (Service.length_flatMap_bytes _).ge
    · rw [length_append, length_little]
      exact Nat.le_add_right _ _
  · rw [h.services (Bool.eq_false_iff.mpr htype)]
    exact reads_pure _

/-- The size of a client entry is the size of its client part. -/
theorem size_of_client (h : ¬ e.type.hasServices = true) : e.getSize - 4 - 1 = e.clientSize := by
  simp only [getSize, clientSize, if_neg h, routingInfoEntryHeaderSize]
  omega

theorem reads_deserializeClientSize (hsize : e.getSize < 2 ^ 32) :
    Reads (deserializeClientSize e.type (UInt32.ofNat (e.getSize - 4 - 1))) e.clientSizeBytes
      (UInt32.ofNat e.clientSize) := by
  rw [deserializeClientSize, clientSizeBytes]
  split_ifs with htype
  · have hle := clientSize_le_getSize (e := e)
    exact reads_size (by omega)
  · rw [size_of_client htype]
    exact reads_pure _

/-- The code reads the entry back from its image. -/
theorem reads_deserialize (h : e.WellFormed) (hsize : e.getSize < 2 ^ 32) :
    Reads deserialize e.bytes e := by
  refine Reads.need (Reads.bind (reads_uint8 _) ?_) _ ?_
  · rw [h.type.ofByte_toByte]
    refine (reads_failIf Error.malformed h.type.ne_unknown).bind ?_
    refine (reads_size (by omega)).bind ((reads_deserializeClientSize hsize).bind ?_)
    refine (reads_uint16 _).bind ((reads_deserializeAddress h).bind ?_)
    exact (reads_deserializeServices h hsize).check (reads_pure _)
  · exact headerSize_le_getSize.trans_eq length_bytes.symm

end RoutingInfoEntry

/-! ### The command -/

namespace RoutingInfoCommand

variable {c : RoutingInfoCommand}

/-- The image of the header. -/
def headerBytes (c : RoutingInfoCommand) : List UInt8 :=
  little 1 routingInfoId.toNat ++ (little 2 c.version.toNat ++
    (little 2 c.client.toNat ++ little 4 c.size.toNat))

theorem length_headerBytes : c.headerBytes.length = commandHeaderSize := by
  simp [headerBytes, commandHeaderSize]

theorem writes_serializeHeader : Writes c.serializeHeader c.headerBytes :=
  (writes_put _).then ((writes_put _).then ((writes_put _).then (writes_put _)))

theorem reads_deserializeHeader :
    Reads deserializeHeader c.headerBytes (c.version, c.client, c.size) := by
  refine (reads_uint8 _).bind ((reads_failIf Error.mismatch (not_not.mpr rfl)).bind ?_)
  exact (reads_uint16 _).bind ((reads_uint16 _).bind ((reads_uint32 _).check (reads_pure _)))

theorem length_flatMap_bytes :
    (c.entries.flatMap RoutingInfoEntry.bytes).length = c.payloadSize := by
  rw [length_flatMap, payloadSize]
  simp only [RoutingInfoEntry.length_bytes]

/-- The image of a command. -/
def bytes (c : RoutingInfoCommand) : List UInt8 :=
  c.sized.headerBytes ++ c.entries.flatMap RoutingInfoEntry.bytes

theorem getSize_le_payloadSize {e : RoutingInfoEntry} (he : e ∈ c.entries) :
    e.getSize ≤ c.payloadSize := le_sum_of_mem (mem_map_of_mem he)

/-- Whatever stood in the buffer, the image of the command stands there in the end. -/
theorem serialize_eq (h : c.payloadSize < 2 ^ 32) (buffer : List UInt8) :
    c.serialize buffer = .ok c.bytes := by
  have hentries := writes_forM (l := c.entries) fun e he =>
    e.writes_serialize ((getSize_le_payloadSize he).trans_lt h)
  have hlength : (Buffer.resize buffer (commandHeaderSize + c.payloadSize) 0).length =
      (c.sized.headerBytes ++ c.entries.flatMap RoutingInfoEntry.bytes).length := by
    rw [Buffer.length_resize, length_append, length_headerBytes, length_flatMap_bytes]
  have hrun := ((writes_serializeHeader (c := c.sized)).then hentries).run_fill hlength
  exact congrArg (Except.map fun r => r.2.1) hrun

theorem deserialize_bytes (h : c.payloadSize < 2 ^ 32) (hentries : ∀ e ∈ c.entries, e.WellFormed) :
    deserialize c.bytes = .ok c.sized := by
  have hitem : ∀ e ∈ c.entries, Reads RoutingInfoEntry.deserialize e.bytes e := by
    intro e he
    exact RoutingInfoEntry.reads_deserialize (hentries e he)
      ((getSize_le_payloadSize he).trans_lt h)
  have hpos : ∀ e ∈ c.entries, 0 < e.bytes.length := by
    intro e _
    rw [RoutingInfoEntry.length_bytes]
    exact Nat.lt_of_lt_of_le (by decide) RoutingInfoEntry.headerSize_le_getSize
  have hfuel : (c.entries.flatMap RoutingInfoEntry.bytes).length < c.bytes.length + 1 := by
    rw [bytes, length_append]
    omega
  have hroom : 0 + commandHeaderSize ≤ c.bytes.length := by
    rw [bytes, length_append, length_headerBytes, Nat.zero_add]
    exact Nat.le_add_right _ _
  have hloop := run_untilEnd hitem hpos hfuel c.sized.headerBytes
  have hread : ((readAll (c.bytes.length + 1)).run c.bytes).run 0 =
      .ok (c.sized, c.sized.headerBytes.length +
        (c.entries.flatMap RoutingInfoEntry.bytes).length) := by
    rw [readAll, run_need_bind hroom]
    refine (reads_deserializeHeader.run_bind _ [] _).trans ?_
    rw [nil_append, length_nil, Nat.zero_add, ReaderT.run_bind, StateT.run_bind, hloop]
    rfl
  rw [deserialize, hread]
  rfl

end RoutingInfoCommand

end SomeipTunnel.Protocol
