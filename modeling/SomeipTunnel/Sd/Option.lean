import SomeipTunnel.Lib.OrderedSet
import SomeipTunnel.Someip.Deserializer

/-!
# Options of service discovery messages

An option has a length, a type and contents of its own: configuration items, a priority, an address
and a port, a set of clients. `deserialize_option` looks two bytes ahead for the type before it knows
whether the option has them, and leaves the rest to the class of that type.

The objects of the source keep `length_` next to the contents; `WellFormed` says that the two agree
and that the contents fit the format. The reading of a client that fails leaves an unset number in
the set of a selective option, which is then dropped; here the option fails at once.
-/

namespace SomeipTunnel.Sd

open Codec Cursor Cursor.Parse Someip

/-! ### Options -/

/-- Source: `enumeration_types.hpp`, `layer_four_protocol_e` -/
inductive Protocol
  | tcp
  | udp
  | unknown
deriving DecidableEq, Repr

def Protocol.toByte : Protocol → UInt8
  | tcp => 0x06
  | udp => 0x11
  | unknown => 0xFF

/-- Source: `ipv4_option_impl::deserialize`, the switch -/
def Protocol.ofByte (b : UInt8) : Protocol :=
  if b = 0x06 then tcp else if b = 0x11 then udp else unknown

/-- Source: `enumeration_types.hpp`, `option_type_e` -/
inductive OptionType
  | configuration
  | loadBalancing
  | protection
  | ip4Endpoint
  | ip6Endpoint
  | ip4Multicast
  | ip6Multicast
  | selective
  | unknown
deriving DecidableEq, Repr

def OptionType.toByte : OptionType → UInt8
  | configuration => 0x01
  | loadBalancing => 0x02
  | protection => 0x03
  | ip4Endpoint => 0x04
  | ip6Endpoint => 0x06
  | ip4Multicast => 0x14
  | ip6Multicast => 0x16
  | selective => 0x20
  | unknown => 0xFF

/-- Source: `option_impl::deserialize`, the switch -/
def OptionType.ofByte (b : UInt8) : OptionType :=
  if b = 0x01 then configuration
  else if b = 0x02 then loadBalancing
  else if b = 0x03 then protection
  else if b = 0x04 then ip4Endpoint
  else if b = 0x06 then ip6Endpoint
  else if b = 0x14 then ip4Multicast
  else if b = 0x16 then ip6Multicast
  else if b = 0x20 then selective
  else unknown

/-- The two classes of options with an address. -/
inductive IpVersion
  | v4
  | v6
deriving DecidableEq, Repr

/-- Source: `primitive_types.hpp`, `ipv4_address_t`, `ipv6_address_t` -/
def IpVersion.addressSize : IpVersion → ℕ
  | v4 => 4
  | v6 => 16

/-- Source: `defines.hpp`, `VSOMEIP_SD_IPV4_OPTION_LENGTH`, `VSOMEIP_SD_IPV6_OPTION_LENGTH` -/
def IpVersion.optionLength : IpVersion → UInt16
  | v4 => 0x0009
  | v6 => 0x0015

/-- A key and its value. -/
abbrev Item := List UInt8 × List UInt8

/-- The contents of an option. The items of a configuration stand in the order of their keys, and
the clients of a selective option in ascending order, as in the map and the set of the source. -/
inductive Body
  | configuration (items : List Item)
  | loadBalancing (priority weight : UInt16)
  | protection (counter crc : UInt32)
  | ip (version : IpVersion) (multicast : Bool) (address : List UInt8) (protocol : Protocol)
      (port : UInt16)
  | selective (clients : List UInt16)
  | unknown (payload : List UInt8)
deriving DecidableEq, Repr

/-- Source: `option_impl.hpp`, `option_impl` with its subclasses -/
structure SdOption where
  length : UInt16
  body : Body
deriving DecidableEq, Repr

/-- The type of an option. -/
def Body.type : Body → OptionType
  | configuration _ => .configuration
  | loadBalancing .. => .loadBalancing
  | protection .. => .protection
  | ip .v4 multicast .. => if multicast then .ip4Multicast else .ip4Endpoint
  | ip .v6 multicast .. => if multicast then .ip6Multicast else .ip6Endpoint
  | selective _ => .selective
  | unknown _ => .unknown

/-- The length of an option with these contents: the reserved byte and what follows. -/
def Body.length : Body → ℕ
  | configuration items => 2 + (items.map fun i => i.1.length + i.2.length + 2).sum
  | loadBalancing .. => 5
  | protection .. => 9
  | ip version .. => version.optionLength.toNat
  | selective clients => 1 + 2 * clients.length
  | unknown payload => 1 + payload.length

/-- The order of the keys. -/
def keyLt (i j : Item) : Bool := i.1 < j.1

/-- The order of the clients. -/
def clientLt (c d : UInt16) : Bool := c < d

/-- The character between a key and its value. -/
def equalSign : UInt8 := 0x3D

/-- The contents fit the format: items have a length of one byte and keys without the character
behind them, an address has the size of its version. Unknown options are only received. -/
def Body.Fits : Body → Prop
  | configuration items =>
      (∀ i ∈ items, 1 + i.1.length + i.2.length < 256 ∧ equalSign ∉ i.1) ∧
        items.Pairwise fun i j => keyLt i j = true
  | ip version _ address .. => address.length = version.addressSize
  | selective clients => clients.Pairwise fun c d => clientLt c d = true
  | unknown _ => False
  | _ => True

/-- The option fits the format and its length field. -/
def SdOption.WellFormed (o : SdOption) : Prop := o.length.toNat = o.body.length ∧ o.body.Fits

/-! ### Writing -/

/-- Source: `option_impl::serialize` -/
def SdOption.serializeHeader (o : SdOption) : List UInt8 :=
  serialize16 o.length ++ (serialize8 o.body.type.toByte ++ serialize8 0)

/-- Source: `configuration_option_impl::serialize`, the loop -/
def serializeItem (i : Item) : List UInt8 :=
  UInt8.ofNat (1 + i.1.length + i.2.length) :: (i.1 ++ equalSign :: i.2)

/-- What the classes write behind the header.
Source: `serialize` of `configuration_option_impl`, `load_balancing_option_impl`,
`protection_option_impl`, `ipv4_option_impl`, `ipv6_option_impl`, `selective_option_impl` -/
def Body.serialize : Body → List UInt8
  | configuration items => items.flatMap serializeItem ++ [0]
  | loadBalancing priority weight => serialize16 priority ++ serialize16 weight
  | protection counter crc => serialize32 counter false ++ serialize32 crc false
  | ip _ _ address protocol port =>
      address ++ (serialize8 0 ++ (serialize8 protocol.toByte ++ serialize16 port))
  | selective clients => clients.flatMap serialize16
  | unknown _ => []

def SdOption.serialize (o : SdOption) : List UInt8 := o.serializeHeader ++ o.body.serialize

/-! ### Reading -/

/-- Source: `option_impl::deserialize` -/
def deserializeOptionHeader : Parse (UInt16 × OptionType) := do
  let length ← deserialize16
  let itsType ← deserialize8
  let _reserved ← deserialize8
  return (length, OptionType.ofByte itsType)

/-- The key and the value of an item: without the character there is no value. -/
def splitItem (item : List UInt8) : Item :=
  (item.takeWhile (· ≠ equalSign), (item.dropWhile (· ≠ equalSign)).drop 1)

/-- Source: `configuration_option_impl::deserialize`, the loop -/
def deserializeItems : ℕ → List Item → Parse (List Item)
  | 0, _ => fun _ => .error .endless
  | fuel + 1, configuration => do
      let itemLength ← deserialize8
      if itemLength = 0 then return configuration
      else
        let item ← deserializeVector itemLength.toNat
        if configuration.any fun i => i.1 = (splitItem item).1 then fail
        else
          let configuration := OrderedSet.insert keyLt configuration (splitItem item)
          if (← remaining) = 0 then return configuration
          else deserializeItems fuel configuration

/-- Source: `configuration_option_impl::deserialize` -/
def deserializeConfiguration : Parse SdOption := do
  let header ← deserializeOptionHeader
  let items ← deserializeItems ((← remaining) + 1) []
  return ⟨header.1, .configuration items⟩

/-- Source: `load_balancing_option_impl::deserialize` -/
def deserializeLoadBalancing : Parse SdOption := do
  let header ← deserializeOptionHeader
  let priority ← deserialize16
  let weight ← deserialize16
  return ⟨header.1, .loadBalancing priority weight⟩

/-- Source: `protection_option_impl::deserialize` -/
def deserializeProtection : Parse SdOption := do
  let header ← deserializeOptionHeader
  let counter ← deserialize32 false
  let crc ← deserialize32 false
  return ⟨header.1, .protection counter crc⟩

/-- The option that the reads of an address give, each of which may have failed; one variable takes
the reserved byte and the protocol. -/
def ipOption (version : IpVersion) (header : UInt16 × OptionType) (address : Option (List UInt8))
    (itsReserved protocol : Option UInt8) (port : Option UInt16) : SdOption :=
  ⟨header.1, .ip version (header.2 = .ip4Multicast ∨ header.2 = .ip6Multicast)
    (address.getD (List.replicate version.addressSize 0))
    (Protocol.ofByte (protocol.getD (itsReserved.getD 0xFF))) (port.getD 0)⟩

/-- The results of the reads are not looked at, only whether the header fits.
Source: `ipv4_option_impl::deserialize`; `ipv6_option_impl.cpp`, `ipv6_option_impl::deserialize` -/
def deserializeIp (version : IpVersion) : Parse SdOption := do
  let header ← attempt deserializeOptionHeader
  let address ← attempt (deserializeVector version.addressSize)
  let itsReserved ← attempt deserialize8
  let protocol ← attempt deserialize8
  let port ← attempt deserialize16
  match header with
  | none => fail
  | some header =>
      if header.1 = version.optionLength then
        return ipOption version header address itsReserved protocol port
      else fail

/-- Source: `selective_option_impl::deserialize`, the loop -/
def deserializeClients : ℕ → List UInt16 → Parse (List UInt16)
  | 0, clients => return clients
  | n + 1, clients => do
      let itsClient ← deserialize16
      deserializeClients n (OrderedSet.insert clientLt clients itsClient)

/-- The loop counts from one to the length in steps of two.
Source: `selective_option_impl::deserialize` -/
def deserializeSelective : Parse SdOption := do
  let header ← deserializeOptionHeader
  let clients ← deserializeClients (header.1.toNat / 2) []
  return ⟨header.1, .selective clients⟩

/-- Source: `unknown_option_impl::deserialize` -/
def deserializeUnknown : Parse SdOption := do
  let header ← deserializeOptionHeader
  if header.1 = 0 ∨ (← remaining) < header.1.toNat then fail
  else
    let payload ← deserializeVector (header.1.toNat - 1)
    return ⟨header.1, .unknown payload⟩

/-- The class for a type.
Source: `message_impl::deserialize_option`, the switch -/
def deserializeAs : OptionType → Parse SdOption
  | .configuration => deserializeConfiguration
  | .loadBalancing => deserializeLoadBalancing
  | .protection => deserializeProtection
  | .ip4Endpoint | .ip4Multicast => deserializeIp .v4
  | .ip6Endpoint | .ip6Multicast => deserializeIp .v6
  | .selective => deserializeSelective
  | .unknown => deserializeUnknown

/-- Source: `message_impl::deserialize_option` -/
def deserializeOption : Parse SdOption := do
  let tmpOptionType ← lookAhead 2
  deserializeAs (OptionType.ofByte tmpOptionType)

end SomeipTunnel.Sd
