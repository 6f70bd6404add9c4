import SomeipTunnel.Tunnel.Bridge

/-!
# Lengths and arrays of the bridge

Every length in a sample is written by the other process, and the length of a SOME/IP payload is
written by its sender. This module says for which of them the bridge stays inside its arrays, and
what it then does.

* `State.fromSomeip_eq`: when a message is forwarded, and what ends the call otherwise.
* `State.incommingMsg_eq`: inside of the arrays a sample is handled as `State.handle` says, and
  everything else is an access out of bounds. All later proofs use these two.
* `bridge_in_bounds_iff`: the lengths for which the bridge is memory-safe and forwards faithfully.
-/

namespace SomeipTunnel.Tunnel

open Access OrderedSet

/-! ### The two sides in closed form -/

/-- The set that the inner loop builds from the first groups of an event. -/
def groupSet (metadata : ServiceDescEntry) (desc : SomeIPEventDesc) : List UInt16 :=
  ofList (fun a b => decide (a < b)) (first desc.eventGroups metadata.len.toNat)

/-- The group that the bridge subscribes to for an event. -/
def subscribedGroup (metadata : ServiceDescEntry) (desc : SomeIPEventDesc) : UInt16 :=
  (groupSet metadata desc).headD 0

/-- What is offered for a sample in bounds. -/
def offered (header : SomeipTunnelHeader) : List AppCall :=
  header.serviceMetadata.described.map (fun desc =>
    .offerEvent header.serviceId header.instanceId desc.eventId
      (groupSet header.serviceMetadata desc) desc.typ.toUInt8) ++
  [.offerService header.serviceId header.instanceId]

/-- What is requested for a sample in bounds. -/
def requested (header : SomeipTunnelHeader) : List AppCall :=
  header.serviceMetadata.described.flatMap (fun desc =>
    [.requestEvent header.serviceId header.instanceId desc.eventId
      (groupSet header.serviceMetadata desc) desc.typ.toUInt8,
      .subscribe header.serviceId header.instanceId
        (subscribedGroup header.serviceMetadata desc)]) ++
  [.requestService header.serviceId header.instanceId]

/-- The response with a payload. -/
def responseTo (request : Message) (payload : List UInt8) : Message :=
  { createResponse request with payload := payload }

/-- What `incommingMsg` does with a sample in bounds. -/
def State.handle (t : State) (sample : Sample) : Except Fault (List AppCall) :=
  match TunnelMsgType.ofRaw sample.header.type with
  | some .offerService => .ok (offered sample.header)
  | some .findService => .ok (requested sample.header)
  | some .offerServiceAck | some .findServiceAck | some .message =>
      match t.mMessagesInProgress.lookup sample.header.id with
      | none => .error .outOfRange
      | some request => .ok [.send (responseTo request sample.payload.bytes)]
  | some .event => .ok [.notify sample.header.serviceId sample.header.instanceId
      sample.header.methodId sample.payload.bytes]
  | none => .ok []

/-- The sample goes to the branch that answers a request.
Source: `iceoryx2_bridge.cpp`, lines 200–202 -/
def Sample.Answers (sample : Sample) : Prop :=
  TunnelMsgType.ofRaw sample.header.type ∈
    [some .offerServiceAck, some .findServiceAck, some TunnelMsgType.message]

instance (sample : Sample) : Decidable sample.Answers := inferInstanceAs (Decidable (_ ∈ _))

/-- The sample describes a service: the bridge runs over its events and their groups. -/
def Sample.DescribesService (sample : Sample) : Prop :=
  TunnelMsgType.ofRaw sample.header.type = some .offerService ∨
    TunnelMsgType.ofRaw sample.header.type = some .findService

instance (sample : Sample) : Decidable sample.DescribesService :=
  inferInstanceAs (Decidable (_ ∨ _))

/-- **The samples that stay inside of the arrays.** The number of events is also the bound of the
loop over the groups of an event, of which there are four.
Source: `iceoryx2_bridge.hpp`, the array sizes; `iceoryx2_bridge.cpp`, lines 173 and 188 -/
structure Sample.InBounds (sample : Sample) : Prop where
  metadata : sample.header.serviceMetadata.InBounds
  payload : sample.payload.length.toNat ≤ 1500
  service : sample.DescribesService → sample.header.serviceMetadata.len.toNat ≤ 4

instance (sample : Sample) : Decidable sample.InBounds :=
  decidable_of_iff (sample.header.serviceMetadata.InBounds ∧ sample.payload.length.toNat ≤ 1500 ∧
    (sample.DescribesService → sample.header.serviceMetadata.len.toNat ≤ 4))
    ⟨fun ⟨h₁, h₂, h₃⟩ => ⟨h₁, h₂, h₃⟩, fun ⟨h₁, h₂, h₃⟩ => ⟨h₁, h₂, h₃⟩⟩

/-! ### From the gateway -/

section gateway

variable {metadata : ServiceDescEntry} {header : SomeipTunnelHeader} {desc : SomeIPEventDesc}

/-- The array of the groups has room for four events. -/
theorem itsGroups_eq (metadata : ServiceDescEntry) (desc : SomeIPEventDesc) :
    itsGroups metadata desc =
      if metadata.len.toNat ≤ 4 then some (groupSet metadata desc) else none := by
  unfold itsGroups
  rw [forFirst_read]
  split_ifs <;> rfl

theorem mem_groupSet {group : UInt16} :
    group ∈ groupSet metadata desc ↔ group ∈ first desc.eventGroups metadata.len.toNat := by
  refine mem_ofList fun x y h₁ h₂ => ?_
  simp only [decide_eq_false_iff_not, UInt16.not_lt] at h₁ h₂
  exact UInt16.le_antisymm h₂ h₁

/-- If an event is described, its set has a first group. -/
theorem head?_groupSet (h : metadata.len.toNat ≠ 0) :
    (groupSet metadata desc).head? = some (subscribedGroup metadata desc) := by
  have hne : first desc.eventGroups metadata.len.toNat ≠ [] := by
    simp [first_eq_nil, h]
  obtain ⟨group, hgroup⟩ := List.exists_mem_of_ne_nil _ hne
  obtain ⟨a, as, has⟩ := List.exists_cons_of_ne_nil (List.ne_nil_of_mem (mem_groupSet.mpr hgroup))
  simp [subscribedGroup, has]

/-- A loop over the events whose body needs the groups of each. -/
theorem forFirst_itsGroups {β : Type*} (metadata : ServiceDescEntry)
    (f : SomeIPEventDesc → Option β) (g : SomeIPEventDesc → β)
    (hf : ∀ desc, metadata.len.toNat ≠ 0 →
      f desc = if metadata.len.toNat ≤ 4 then some (g desc) else none) :
    forFirst metadata.eventInfos metadata.len.toNat f =
      if metadata.len.toNat ≤ 4 then some (metadata.described.map g) else none := by
  by_cases h0 : metadata.len.toNat = 0
  · simp [h0, forFirst, ServiceDescEntry.described, first]
  · have hf' : f = fun desc => if metadata.len.toNat ≤ 4 then some (g desc) else none :=
      funext fun desc => hf desc h0
    rw [hf']
    by_cases h4 : metadata.len.toNat ≤ 4
    · simp only [if_pos h4]
      rw [forFirst_some, if_pos (by omega), ServiceDescEntry.described]
    · simp only [if_neg h4]
      rw [forFirst_eq]
      split_ifs with h10
      · obtain ⟨desc, descs, hcons⟩ := List.exists_cons_of_ne_nil
          (fun hnil => h0 ((first_eq_nil.mp hnil).resolve_right (by decide)) :
            first metadata.eventInfos metadata.len.toNat ≠ [])
        simp [hcons]
      · rfl

/-- So has an offer. -/
theorem offerCalls_eq (header : SomeipTunnelHeader) : offerCalls header =
      if header.serviceMetadata.len.toNat ≤ 4 then some (offered header) else none := by
  unfold offerCalls
  simp only
  rw [forFirst_itsGroups header.serviceMetadata _ (fun desc =>
    .offerEvent header.serviceId header.instanceId desc.eventId
      (groupSet header.serviceMetadata desc) desc.typ.toUInt8)]
  · split_ifs <;> rfl
  · intro desc _
    rw [itsGroups_eq]
    split_ifs <;> rfl

/-- And a request. -/
theorem findCalls_eq (header : SomeipTunnelHeader) : findCalls header =
      if header.serviceMetadata.len.toNat ≤ 4 then some (requested header) else none := by
  unfold findCalls
  simp only
  rw [forFirst_itsGroups header.serviceMetadata _ (fun desc =>
    [.requestEvent header.serviceId header.instanceId desc.eventId
      (groupSet header.serviceMetadata desc) desc.typ.toUInt8,
      .subscribe header.serviceId header.instanceId
        (subscribedGroup header.serviceMetadata desc)])]
  · split_ifs
    · simp [requested, List.flatMap]
    · rfl
  · intro desc h0
    rw [itsGroups_eq]
    split_ifs
    · simp [head?_groupSet h0]
    · rfl

/-- **What `incommingMsg` does.**
Source: `iceoryx2_bridge.cpp`, `incommingMsg` -/
theorem State.incommingMsg_eq (t : State) (sample : Sample) : t.incommingMsg sample =
      if sample.InBounds then t.handle sample else .error .outOfBounds := by
  have hprint := sample.isSome_print
  unfold State.incommingMsg State.handle
  rcases hp : sample.print with _ | text
  · rw [hp] at hprint
    rw [if_neg fun h => by simpa using hprint.mpr ⟨h.metadata, h.payload⟩]
    rfl
  · rw [hp] at hprint
    obtain ⟨hmeta, hpay⟩ := hprint.mp rfl
    have hbytes : sample.payload.plData = some sample.payload.bytes := by
      rw [SomeipTunnelPayload.plData, forFirst_read, if_pos hpay, SomeipTunnelPayload.bytes]
    have hin : sample.InBounds ↔
        (sample.DescribesService → sample.header.serviceMetadata.len.toNat ≤ 4) :=
      ⟨fun h => h.service, fun h => ⟨hmeta, hpay, h⟩⟩
    simp only [hin, Sample.DescribesService, offerCalls_eq, findCalls_eq, hbytes, checked]
    rcases TunnelMsgType.ofRaw sample.header.type with _ | type
    · simp [Bind.bind, Except.bind]
    · cases type
      case offerService | findService =>
        by_cases h4 : sample.header.serviceMetadata.len.toNat ≤ 4 <;>
          simp [Bind.bind, Except.bind, h4]
      case offerServiceAck | findServiceAck | message =>
        rcases t.mMessagesInProgress.lookup sample.header.id with _ | request <;>
          simp [Bind.bind, Except.bind, responseTo]
      case event => simp [Bind.bind, Except.bind]

/-- A sample that answers is looked up. -/
theorem State.handle_of_answers (t : State) {sample : Sample} (h : sample.Answers) :
    t.handle sample = match t.mMessagesInProgress.lookup sample.header.id with
      | none => .error .outOfRange
      | some request => .ok [.send (responseTo request sample.payload.bytes)] := by
  simp only [Sample.Answers, List.mem_cons, List.not_mem_nil, or_false] at h
  unfold State.handle
  rcases h with h | h | h <;> rw [h]

/-- The other samples lead to calls that do not depend on the table and send nothing. -/
theorem State.handle_of_not_answers {sample : Sample} (h : ¬ sample.Answers) :
    ∃ calls, (∀ t : State, t.handle sample = .ok calls) ∧ ∀ m, .send m ∉ calls := by
  unfold State.handle
  unfold Sample.Answers at h
  rcases htype : TunnelMsgType.ofRaw sample.header.type with _ | type
  · exact ⟨_, fun _ => rfl, by simp⟩
  · cases type
    case offerServiceAck | findServiceAck | message => simp [htype] at h
    all_goals exact ⟨_, fun _ => rfl, by simp [offered, requested]⟩

theorem State.handle_ne_outOfBounds (t : State) (sample : Sample) :
    t.handle sample ≠ .error .outOfBounds := by
  by_cases h : sample.Answers
  · rw [t.handle_of_answers h]
    rcases t.mMessagesInProgress.lookup sample.header.id with _ | request <;> simp
  · obtain ⟨calls, hcalls, -⟩ := State.handle_of_not_answers h
    simp [hcalls t]

end gateway

/-! ### From SOME/IP -/

section someip

variable {n : ℕ} {msg : Message}

/-- The bytes of a payload that fits are those of the copy. -/
theorem first_memcpy (dst : Vector UInt8 n) {src : List UInt8} (h : src.length ≤ n) :
    first (memcpy dst src) src.length = src := by
  refine List.ext_getElem? fun k => ?_
  by_cases hk : k < src.length
  · have hkn : k < n := by omega
    simp [first, memcpy, hk, hkn, List.getD_eq_getElem?_getD]
  · rw [List.getElem?_eq_none (by rw [length_first h]; omega), List.getElem?_eq_none (by omega)]

theorem toNat_length_forwardedSample (id : UInt64) (h : msg.payload.length ≤ 1500) :
    (forwardedSample msg id).payload.length.toNat = msg.payload.length := by
  simp only [forwardedSample, UInt16.toNat_ofNat']
  omega

/-- **A payload that fits is forwarded byte for byte.** -/
theorem bytes_forwardedSample (id : UInt64) (h : msg.payload.length ≤ 1500) :
    (forwardedSample msg id).payload.bytes = msg.payload := by
  rw [SomeipTunnelPayload.bytes, toNat_length_forwardedSample id h]
  exact first_memcpy _ h

/-- A forwarded sample can be logged. -/
theorem isSome_print_forwardedSample (id : UInt64) (h : msg.payload.length ≤ 1500) :
    (forwardedSample msg id).print.isSome := by
  rw [Sample.isSome_print, toNat_length_forwardedSample id h]
  have hmeta : Sample.loaned.header.serviceMetadata.InBounds := by decide
  exact ⟨hmeta, h⟩

/-- **What `fromSomeip` does.**
Source: `iceoryx2_bridge.cpp`, `fromSomeip` -/
theorem State.fromSomeip_eq (asserts : Bool) (t : State) (msg : Message) (p : Publishing) :
    t.fromSomeip asserts msg p = if p.loan = false then .error .expectFailed
      else if asserts = true ∧ 15000 ≤ msg.payload.length then .error .assertFailed
      else if 1500 < msg.payload.length then .error .outOfBounds
      else if p.sent then .ok (forwardedSample msg p.drawn, t.emplace p.drawn msg)
      else .error .expectFailed := by
  unfold State.fromSomeip
  simp only [Bool.not_eq_true', Nat.not_lt]
  split_ifs with h₁ h₂ h₃
  · rfl
  · rfl
  · rfl
  all_goals
    obtain ⟨text, htext⟩ := Option.isSome_iff_exists.mp
      (isSome_print_forwardedSample p.drawn (Nat.le_of_not_lt h₃))
    simp only [htext]
  · rfl

end someip

/-! ### Memory safety and fidelity -/

/-- **A call of `fromSomeip` is safe and faithful**: it stays inside of its arrays, a sample that it
publishes has the payload of the message and its length, and a payload that would fit is withheld
only if the publisher fails. -/
def State.Forwards (asserts : Bool) (t : State) (msg : Message) (p : Publishing) : Prop :=
  match t.fromSomeip asserts msg p with
  | .ok (sample, _) =>
      sample.payload.length.toNat = msg.payload.length ∧ sample.payload.bytes = msg.payload
  | .error .expectFailed => p.loan = false ∨ p.sent = false
  | .error .assertFailed => 1500 < msg.payload.length
  | .error _ => False

/-- **The lengths for which the bridge stays inside of its arrays.** A payload of more than 1500
bytes is written behind the array unless an assertion stops it at 15000, and a sample is handled
inside of the arrays iff its lengths are `InBounds`; for these lengths the payload is forwarded byte
for byte.
Source: `iceoryx2_bridge.cpp`, `fromSomeip`, `incommingMsg`; `iceoryx2_bridge.hpp` -/
theorem bridge_in_bounds_iff (asserts : Bool) (t : State) :
    (∀ msg p, t.Forwards asserts msg p ↔ msg.payload.length ≤ 1500 ∨ p.loan = false ∨
      (asserts = true ∧ 15000 ≤ msg.payload.length)) ∧
    (∀ sample, t.incommingMsg sample ≠ .error .outOfBounds ↔ sample.InBounds) := by
  refine ⟨fun msg p => ?_, fun sample => ?_⟩
  · unfold State.Forwards
    rw [State.fromSomeip_eq]
    split_ifs with h₁ h₂ h₃ h₄
    · simp [h₁]
    · have : 1500 < msg.payload.length := by omega
      simp [h₂, this]
    · simp [h₁, h₂, h₃]
    · simp only [toNat_length_forwardedSample _ (Nat.le_of_not_lt h₃),
        bytes_forwardedSample _ (Nat.le_of_not_lt h₃), Nat.le_of_not_lt h₃, true_or, and_self]
    · simp [h₄, Nat.le_of_not_lt h₃]
  · rw [State.incommingMsg_eq]
    split_ifs with h
    · simp [h, t.handle_ne_outOfBounds sample]
    · simp [h]

/-- One byte more than the array has is written behind it, in both builds; an offer of five events
with one group each is read behind the groups. -/
theorem bridge_leaves_arrays :
    (∀ asserts, State.new.fromSomeip asserts (requestWith 7 (List.replicate 1501 0))
        ⟨true, true, 1⟩ = .error .outOfBounds ∧
      ¬ State.new.Forwards asserts (requestWith 7 (List.replicate 1501 0)) ⟨true, true, 1⟩) ∧
    State.new.incommingMsg (sampleWith .offerService 0
      (List.replicate 5 ⟨0x8001, Vector.replicate 4 1, 1, 0⟩) []) = .error .outOfBounds := by
  refine ⟨fun asserts => ?_, ?_⟩
  · have hlen : (requestWith 7 (List.replicate 1501 0)).payload.length = 1501 :=
      List.length_replicate
    have hfault : State.new.fromSomeip asserts (requestWith 7 (List.replicate 1501 0))
        ⟨true, true, 1⟩ = .error .outOfBounds := by
      rw [State.fromSomeip_eq, hlen, if_neg (by decide), if_neg (by omega), if_pos (by omega)]
    refine ⟨hfault, ?_⟩
    rw [State.Forwards, hfault]
    exact id
  · rw [State.incommingMsg_eq, if_neg (by decide +kernel)]

end SomeipTunnel.Tunnel
