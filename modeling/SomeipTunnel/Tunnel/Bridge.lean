import SomeipTunnel.Lib.OrderedSet
import SomeipTunnel.Lib.Run
import SomeipTunnel.Tunnel.Sample

/-!
# `SomeipTunnel`: the bridge between SOME/IP and the gateway

The model of `iceoryx2_bridge.cpp`. The dispatcher threads of the SOME/IP application call
`fromSomeip` and `serviceStateChanged`, which publish samples; the gateway thread receives samples
in `fromGateway` and hands them to `incommingMsg`, which calls the application. The two sides share
`mMessagesInProgress`. A run is any interleaving of these calls; the identifier that the random
generator draws and the results of `loan` and `send` are inputs of the calls.

A call can leave by a `Fault`. `expect` and `assert` end the process, an exception ends the thread,
and an access outside of an array has no defined behaviour.
-/

namespace SomeipTunnel.Tunnel

open Access OrderedSet

/-! ### The SOME/IP side -/

/-- Source: `enumeration_types.hpp`, `message_type_e::MT_REQUEST` -/
def mtRequest : UInt8 := 0x00

/-- Source: `enumeration_types.hpp`, `message_type_e::MT_RESPONSE` -/
def mtResponse : UInt8 := 0x80

/-- Source: `enumeration_types.hpp`, `return_code_e::E_OK` -/
def eOk : UInt8 := 0x00

/-- Source: `enumeration_types.hpp`, `event_type_e::ET_EVENT` -/
def etEvent : UInt8 := 0x00

/-- Source: `enumeration_types.hpp`, `event_type_e::ET_FIELD` -/
def etField : UInt8 := 0x02

/-- A SOME/IP message. -/
structure Message where
  service : UInt16
  instance_ : UInt16
  method : UInt16
  client : UInt16
  session : UInt16
  interfaceVersion : UInt8
  messageType : UInt8
  returnCode : UInt8
  reliable : Bool
  payload : List UInt8
deriving DecidableEq, Repr

/-- Source: `runtime_impl.cpp`, `create_response` -/
def createResponse (request : Message) : Message :=
  { request with messageType := mtResponse, returnCode := eOk, payload := [] }

/-- The calls of the SOME/IP application. -/
inductive AppCall where
  | offerEvent (service instance_ event : UInt16) (eventgroups : List UInt16) (type : UInt8)
  | offerService (service instance_ : UInt16)
  | requestEvent (service instance_ event : UInt16) (eventgroups : List UInt16) (type : UInt8)
  | subscribe (service instance_ eventgroup : UInt16)
  | requestService (service instance_ : UInt16)
  | send (message : Message)
  | notify (service instance_ event : UInt16) (payload : List UInt8)
deriving DecidableEq, Repr

/-! ### The object -/

/-- How a call ends without returning. -/
inductive Fault where
  /-- An access outside of an array. -/
  | outOfBounds
  /-- `std::out_of_range` leaves the call. -/
  | outOfRange
  | assertFailed
  | expectFailed
deriving DecidableEq, Repr

/-- The member of `SomeipTunnel` that the calls change.
Source: `iceoryx2_bridge.hpp`, `mMessagesInProgress` -/
structure State where
  mMessagesInProgress : AList fun _ : UInt64 => Message

/-- The state behind the constructor. -/
def State.new : State := ⟨∅⟩

/-- `unordered_map::emplace`: an entry that is there stays. -/
def State.emplace (t : State) (id : UInt64) (msg : Message) : State :=
  if id ∈ t.mMessagesInProgress then t else ⟨t.mMessagesInProgress.insert id msg⟩

/-- `memcpy` to the start of an array. -/
def memcpy {n : ℕ} (dst : Vector UInt8 n) (src : List UInt8) : Vector UInt8 n :=
  Vector.ofFn fun i => src.getD i dst[i]

/-! ### From SOME/IP to the gateway -/

/-- What `loan`, `send` and the random generator answer in a call. -/
structure Publishing where
  loan : Bool
  sent : Bool
  drawn : UInt64

/-- The sample that `fromSomeip` fills. -/
def forwardedSample (msg : Message) (id : UInt64) : Sample :=
  { header := { Sample.loaned.header with
      type := TunnelMsgType.message.raw
      instanceId := msg.instance_
      serviceId := msg.service
      methodId := msg.method
      id := id }
    payload := ⟨UInt16.ofNat msg.payload.length,
      memcpy Sample.loaned.payload.payload msg.payload⟩ }

/-- `asserts` is the build with assertions.
Source: `iceoryx2_bridge.cpp`, `fromSomeip` -/
def State.fromSomeip (asserts : Bool) (t : State) (msg : Message) (p : Publishing) :
    Except Fault (Sample × State) :=
  if !p.loan then .error .expectFailed
  else if asserts ∧ ¬ msg.payload.length < 15000 then .error .assertFailed
  -- the `memcpy` to `payload.payload`
  else if 1500 < msg.payload.length then .error .outOfBounds
  else
    let newSample := forwardedSample msg p.drawn
    let t' := t.emplace newSample.header.id msg
    match newSample.print with
    | none => .error .outOfBounds
    | some _ => if p.sent then .ok (newSample, t') else .error .expectFailed

/-- Source: `iceoryx2_bridge.cpp`, `serviceStateChanged` -/
def serviceStateChanged (s i : UInt16) (active : Bool) (p : Publishing) : Except Fault Sample :=
  if !p.loan then .error .expectFailed
  else if !p.sent then .error .expectFailed
  else .ok { Sample.loaned with header := { Sample.loaned.header with
    type := TunnelMsgType.findServiceAck.raw
    instanceId := i
    serviceId := s
    isActive := active } }

/-! ### From the gateway to SOME/IP -/

/-- The set `its_groups`; the inner loop runs to the number of events.
Source: `iceoryx2_bridge.cpp`, lines 172–175 and 187–190 -/
def itsGroups (metadata : ServiceDescEntry) (desc : SomeIPEventDesc) : Option (List UInt16) :=
  (forFirst desc.eventGroups metadata.len.toNat some).map (ofList fun a b => decide (a < b))

/-- Source: `iceoryx2_bridge.cpp`, `incommingMsg`, `OFFER_SERVICE` -/
def offerCalls (header : SomeipTunnelHeader) : Option (List AppCall) := do
  let metadata := header.serviceMetadata
  let offered ← forFirst metadata.eventInfos metadata.len.toNat fun desc => do
    let groups ← itsGroups metadata desc
    some (AppCall.offerEvent header.serviceId header.instanceId desc.eventId groups
      desc.typ.toUInt8)
  some (offered ++ [.offerService header.serviceId header.instanceId])

/-- Source: `iceoryx2_bridge.cpp`, `incommingMsg`, `FIND_SERVICE` -/
def findCalls (header : SomeipTunnelHeader) : Option (List AppCall) := do
  let metadata := header.serviceMetadata
  let requested ← forFirst metadata.eventInfos metadata.len.toNat fun desc => do
    let groups ← itsGroups metadata desc
    let smallest ← groups.head?
    some [AppCall.requestEvent header.serviceId header.instanceId desc.eventId groups
      desc.typ.toUInt8, .subscribe header.serviceId header.instanceId smallest]
  some (requested.flatten ++ [.requestService header.serviceId header.instanceId])

/-- `pl_data`, the first `length` bytes of the payload array. -/
def SomeipTunnelPayload.plData (payload : SomeipTunnelPayload) : Option (List UInt8) :=
  forFirst payload.payload payload.length.toNat some

/-- The result of a computation on arrays; without one it has left an array. -/
def checked {α : Type*} : Option α → Except Fault α
  | none => .error .outOfBounds
  | some a => .ok a

/-- Source: `iceoryx2_bridge.cpp`, `incommingMsg` -/
def State.incommingMsg (t : State) (sample : Sample) :
    Except Fault (List AppCall) := do
  let header := sample.header
  let _ ← checked sample.print
  match TunnelMsgType.ofRaw header.type with
  | some .offerService => checked (offerCalls header)
  | some .findService => checked (findCalls header)
  | some .offerServiceAck | some .findServiceAck | some .message =>
      match t.mMessagesInProgress.lookup header.id with
      | none => .error .outOfRange
      | some request =>
          let plData ← checked sample.payload.plData
          .ok [.send { createResponse request with payload := plData }]
  | some .event =>
      let plData ← checked sample.payload.plData
      .ok [.notify header.serviceId header.instanceId header.methodId plData]
  | none => .ok []

/-- What `receive` answers. -/
inductive Received where
  | failed
  | nothing
  | sample (s : Sample)

/-- The loop of the gateway thread: it handles samples until there is none or `receive` fails.
Source: `iceoryx2_bridge.cpp`, `fromGateway` -/
def State.fromGateway (t : State) : List Received → Except Fault (List (List AppCall))
  | .sample s :: rest => do
      let calls ← t.incommingMsg s
      let later ← t.fromGateway rest
      .ok (calls :: later)
  | _ => .ok []

/-! ### Runs -/

/-- The calls of all threads. -/
inductive Event where
  | fromSomeip (msg : Message) (p : Publishing)
  | serviceStateChanged (s i : UInt16) (active : Bool) (p : Publishing)
  | incommingMsg (sample : Sample)

/-- What a call does outside: it publishes a sample or calls the application. -/
inductive Effect where
  | published (sample : Sample)
  | called (calls : List AppCall)
deriving DecidableEq

/-- One call. -/
def State.step (asserts : Bool) (t : State) :
    Event → Except Fault (Effect × State)
  | .fromSomeip msg p => (t.fromSomeip asserts msg p).map fun out => (.published out.1, out.2)
  | .serviceStateChanged s i active p =>
      (Tunnel.serviceStateChanged s i active p).map fun sample => (.published sample, t)
  | .incommingMsg sample => (t.incommingMsg sample).map fun calls => (.called calls, t)

/-! ### Messages and samples for concrete runs -/

/-- A request of one client. -/
def requestWith (session : UInt16) (payload : List UInt8) : Message :=
  ⟨0x1234, 1, 0x0421, 5, session, 1, mtRequest, eOk, false, payload⟩

/-- A sample with some events and some bytes. -/
def sampleWith (type : TunnelMsgType) (id : UInt64) (events : List SomeIPEventDesc)
    (bytes : List UInt8) : Sample :=
  { header := { Sample.loaned.header with
      type := type.raw
      serviceId := 0x1234
      instanceId := 1
      serviceMetadata := ⟨Vector.ofFn fun i => events.getD i ⟨0, Vector.replicate 4 0, 0, 0⟩,
        UInt8.ofNat events.length⟩
      id := id }
    payload := ⟨UInt16.ofNat bytes.length, memcpy Sample.loaned.payload.payload bytes⟩ }

end SomeipTunnel.Tunnel
