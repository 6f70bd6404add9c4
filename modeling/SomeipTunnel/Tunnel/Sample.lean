import Mathlib
import SomeipTunnel.Lib.Access

/-!
# The samples of the tunnel

The model of the shared-memory types in `iceoryx2_bridge.hpp` and of their stream operators. A
sample is written by the other process, so its enumerations are raw numbers and its lengths are
whatever that process put there; the arrays have the fixed sizes of the source. A stream operator
that is led outside of an array by a length has no result.
-/

namespace SomeipTunnel.Tunnel

open Access

/-! ### Types -/

/-- Source: `iceoryx2_bridge.hpp`, `TunnelMsgType` -/
inductive TunnelMsgType where
  | offerService | findService | offerServiceAck | findServiceAck | message | event
deriving DecidableEq, Repr

/-- The number of an enumerator. -/
def TunnelMsgType.raw : TunnelMsgType → UInt32
  | offerService => 0
  | findService => 1
  | offerServiceAck => 2
  | findServiceAck => 3
  | message => 4
  | event => 5

/-- The enumerator of a number, if there is one. -/
def TunnelMsgType.ofRaw (raw : UInt32) : Option TunnelMsgType :=
  [offerService, findService, offerServiceAck, findServiceAck, message, event][raw.toNat]?

/-- Source: `iceoryx2_bridge.hpp`, `EventType` -/
inductive EventType where
  | field | event
deriving DecidableEq, Repr

/-- The enumerator of a number, if there is one. -/
def EventType.ofRaw (raw : UInt32) : Option EventType := [field, event][raw.toNat]?

/-- Source: `iceoryx2_bridge.hpp`, `SomeIPEventDesc` -/
structure SomeIPEventDesc where
  eventId : UInt16
  eventGroups : Vector UInt16 4
  len : UInt8
  typ : UInt32
deriving DecidableEq, Repr

/-- Source: `iceoryx2_bridge.hpp`, `ServiceDescEntry` -/
structure ServiceDescEntry where
  eventInfos : Vector SomeIPEventDesc 10
  len : UInt8
deriving DecidableEq, Repr

/-- Source: `iceoryx2_bridge.hpp`, `SomeipTunnelHeader` -/
structure SomeipTunnelHeader where
  type : UInt32
  serviceId : UInt16
  instanceId : UInt16
  methodId : UInt16
  serviceMetadata : ServiceDescEntry
  isActive : Bool
  id : UInt64
deriving DecidableEq, Repr

/-- Source: `iceoryx2_bridge.hpp`, `SomeipTunnelPayload` -/
structure SomeipTunnelPayload where
  length : UInt16
  payload : Vector UInt8 1500
deriving DecidableEq, Repr

/-- A sample with its user header. -/
structure Sample where
  header : SomeipTunnelHeader
  payload : SomeipTunnelPayload
deriving DecidableEq, Repr

/-- A loaned sample: its header and its payload are value-initialised. -/
def Sample.loaned : Sample :=
  ⟨⟨0, 0, 0, 0, ⟨Vector.replicate 10 ⟨0, Vector.replicate 4 0, 0, 0⟩, 0⟩, false, 0⟩,
    ⟨0, Vector.replicate 1500 0⟩⟩

/-- The events that a header describes: the first ones of the array. -/
def ServiceDescEntry.described (entry : ServiceDescEntry) : List SomeIPEventDesc :=
  first entry.eventInfos entry.len.toNat

/-- The eventgroups that are described for an event. -/
def SomeIPEventDesc.described (desc : SomeIPEventDesc) : List UInt16 :=
  first desc.eventGroups desc.len.toNat

/-- The bytes of the payload. -/
def SomeipTunnelPayload.bytes (payload : SomeipTunnelPayload) : List UInt8 :=
  first payload.payload payload.length.toNat

/-! ### Stream operators -/

/-- Source: `iceoryx2_bridge.hpp`, `operator<<` for `EventType` -/
def EventType.print (typ : UInt32) : String :=
  match EventType.ofRaw typ with
  | some .field => "Field"
  | some .event => "Event"
  | none => "Unknown"

/-- Source: `iceoryx2_bridge.hpp`, `operator<<` for `SomeIPEventDesc` -/
def SomeIPEventDesc.print (desc : SomeIPEventDesc) : Option String := do
  let groups ← forFirst desc.eventGroups desc.len.toNat fun group => some (toString group)
  some ("\x7bevent_id: " ++ toString desc.eventId ++ ", event_groups: [" ++
    ", ".intercalate groups ++ "], typ: " ++ EventType.print desc.typ ++ "\x7d")

/-- Source: `iceoryx2_bridge.hpp`, `operator<<` for `ServiceDescEntry` -/
def ServiceDescEntry.print (entry : ServiceDescEntry) : Option String := do
  let infos ← forFirst entry.eventInfos entry.len.toNat SomeIPEventDesc.print
  some ("\x7bevent_infos: [" ++ ", ".intercalate infos ++ "]\x7d")

/-- Source: `iceoryx2_bridge.hpp`, `operator<<` for `SomeipTunnelHeader` -/
def SomeipTunnelHeader.print (value : SomeipTunnelHeader) : Option String := do
  let metadata ← value.serviceMetadata.print
  some ("SomeipTunnelHeader \x7b type: " ++ toString value.type ++ ", service_id: " ++
    toString value.serviceId ++ ", instance_id: " ++ toString value.instanceId ++
    ", method_id: " ++ toString value.methodId ++ ", find_service_metadata: " ++ metadata ++
    ", id: " ++ toString value.id ++ " \x7d")

/-- A byte as two hexadecimal digits. -/
def hexByte (byte : UInt8) : String :=
  String.ofList [Nat.digitChar (byte.toNat / 16), Nat.digitChar (byte.toNat % 16)]

/-- Source: `iceoryx2_bridge.hpp`, `operator<<` for `SomeipTunnelPayload` -/
def SomeipTunnelPayload.print (value : SomeipTunnelPayload) : Option String := do
  let bytes ← forFirst value.payload value.length.toNat fun byte => some (hexByte byte ++ " ")
  some ("SomeipTunnelPayload \x7b len: " ++ toString value.length ++ ", payload = " ++
    String.join bytes ++ "\x7d")

/-- Both parts, as the bridge logs them. -/
def Sample.print (sample : Sample) : Option String := do
  let header ← sample.header.print
  let payload ← sample.payload.print
  some ("header: " ++ header ++ ", payload: " ++ payload)

/-! ### What the stream operators read -/

/-- The lengths of the description stay inside its arrays. -/
structure ServiceDescEntry.InBounds (entry : ServiceDescEntry) : Prop where
  events : entry.len.toNat ≤ 10
  groups : ∀ desc ∈ entry.described, desc.len.toNat ≤ 4

instance (entry : ServiceDescEntry) : Decidable entry.InBounds :=
  decidable_of_iff (entry.len.toNat ≤ 10 ∧ ∀ desc ∈ entry.described, desc.len.toNat ≤ 4)
    ⟨fun ⟨h₁, h₂⟩ => ⟨h₁, h₂⟩, fun ⟨h₁, h₂⟩ => ⟨h₁, h₂⟩⟩

theorem SomeIPEventDesc.isSome_print (desc : SomeIPEventDesc) :
    desc.print.isSome ↔ desc.len.toNat ≤ 4 := by
  unfold SomeIPEventDesc.print
  rw [forFirst_some]
  split_ifs with h <;> simp [h]

theorem ServiceDescEntry.isSome_print (entry : ServiceDescEntry) :
    entry.print.isSome ↔ entry.InBounds := by
  have hloop : (forFirst entry.eventInfos entry.len.toNat SomeIPEventDesc.print).isSome ↔
      entry.InBounds := by
    rw [isSome_forFirst]
    simp only [SomeIPEventDesc.isSome_print]
    exact ⟨fun ⟨h₁, h₂⟩ => ⟨h₁, h₂⟩, fun ⟨h₁, h₂⟩ => ⟨h₁, h₂⟩⟩
  rw [← hloop]
  unfold ServiceDescEntry.print
  rcases forFirst entry.eventInfos entry.len.toNat SomeIPEventDesc.print with _ | infos <;> simp

theorem SomeipTunnelPayload.isSome_print (payload : SomeipTunnelPayload) :
    payload.print.isSome ↔ payload.length.toNat ≤ 1500 := by
  unfold SomeipTunnelPayload.print
  rw [forFirst_some]
  split_ifs with h <;> simp [h]

/-- **A sample can be logged iff its lengths stay inside the arrays.** -/
theorem Sample.isSome_print (sample : Sample) : sample.print.isSome ↔
      sample.header.serviceMetadata.InBounds ∧ sample.payload.length.toNat ≤ 1500 := by
  rw [← ServiceDescEntry.isSome_print, ← SomeipTunnelPayload.isSome_print]
  unfold Sample.print SomeipTunnelHeader.print
  rcases sample.header.serviceMetadata.print with _ | metadata
  · simp
  · rcases sample.payload.print with _ | payload <;> simp

end SomeipTunnel.Tunnel
