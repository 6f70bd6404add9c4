import SomeipTunnel.Tunnel.Bounds

/-!
# Service descriptions

A sample that offers or finds a service describes up to ten events with up to four groups each, and
the bridge announces them to the SOME/IP application. `State.Mirrors` says what that is for: each
described event is announced with the groups and the type of its description, and for a service that
is to be found every event is in a group that is subscribed.

Two things stand between a description and its announcement. The loop over the groups of an event
runs to the number of events instead of the number of its groups. And the type is cast from one
enumeration to another in which the same names have other numbers.

* `mirrorsType_iff`: the numbers for which the cast keeps the meaning; no enumerator is among them.
* `service_mirrored_iff`: the descriptions that are mirrored.
-/

namespace SomeipTunnel.Tunnel

open Access List

/-! ### Announced events -/

/-- What the application is told about an event. -/
structure Announcement where
  service : UInt16
  instance_ : UInt16
  event : UInt16
  eventgroups : List UInt16
  type : UInt8

/-- The events that are offered. -/
def offeredEvents (calls : List AppCall) : List Announcement :=
  calls.filterMap fun
    | .offerEvent s i e groups type => some ⟨s, i, e, groups, type⟩
    | _ => none

/-- The events that are requested. -/
def requestedEvents (calls : List AppCall) : List Announcement :=
  calls.filterMap fun
    | .requestEvent s i e groups type => some ⟨s, i, e, groups, type⟩
    | _ => none

/-- The type is that of the description: a field is a field and an event is an event. -/
def MirrorsType (typ : UInt32) (type : UInt8) : Prop :=
  (type = etField ↔ EventType.ofRaw typ = some .field) ∧
    (type = etEvent ↔ EventType.ofRaw typ = some .event)

/-- **An announcement mirrors a description.** -/
structure MirrorsEvent (header : SomeipTunnelHeader) (desc : SomeIPEventDesc) (a : Announcement) :
    Prop where
  service : a.service = header.serviceId
  instance_ : a.instance_ = header.instanceId
  event : a.event = desc.eventId
  groups : ∀ group, group ∈ a.eventgroups ↔ group ∈ desc.described
  type : MirrorsType desc.typ a.type

/-- **The bridge mirrors a sample**: it returns, announces exactly the described events, and
subscribes to a group of each event of a service that is to be found. -/
def State.Mirrors (t : State) (sample : Sample) : Prop :=
  ∃ calls, t.incommingMsg sample = .ok calls ∧
    (TunnelMsgType.ofRaw sample.header.type = some .offerService →
      List.Forall₂ (MirrorsEvent sample.header) sample.header.serviceMetadata.described
        (offeredEvents calls)) ∧
    (TunnelMsgType.ofRaw sample.header.type = some .findService →
      List.Forall₂ (MirrorsEvent sample.header) sample.header.serviceMetadata.described
        (requestedEvents calls) ∧
      ∀ desc ∈ sample.header.serviceMetadata.described, ∃ group ∈ desc.described,
        .subscribe sample.header.serviceId sample.header.instanceId group ∈ calls)

/-- The samples that describe a service: at most ten events, each with one to four groups. -/
structure Sample.WellDescribed (sample : Sample) : Prop where
  service : sample.DescribesService
  events : sample.header.serviceMetadata.len.toNat ≤ 10
  groups : ∀ desc ∈ sample.header.serviceMetadata.described,
    1 ≤ desc.len.toNat ∧ desc.len.toNat ≤ 4

instance (sample : Sample) : Decidable sample.WellDescribed :=
  decidable_of_iff (sample.DescribesService ∧ sample.header.serviceMetadata.len.toNat ≤ 10 ∧
    ∀ desc ∈ sample.header.serviceMetadata.described, 1 ≤ desc.len.toNat ∧ desc.len.toNat ≤ 4)
    ⟨fun ⟨h₁, h₂, h₃⟩ => ⟨h₁, h₂, h₃⟩, fun ⟨h₁, h₂, h₃⟩ => ⟨h₁, h₂, h₃⟩⟩

/-- **The descriptions that are mirrored.** The payload can be logged, there are at most four events,
the first groups of each event, as many as there are events, are the groups of its description, and
its type is none of the enumerators, nor a number that is cast to `ET_EVENT` or `ET_FIELD`.
Source: `iceoryx2_bridge.cpp`, lines 171–178 and 186–195 -/
structure Sample.Mirrorable (sample : Sample) : Prop where
  payload : sample.payload.length.toNat ≤ 1500
  events : sample.header.serviceMetadata.len.toNat ≤ 4
  groups : ∀ desc ∈ sample.header.serviceMetadata.described, ∀ group,
    group ∈ first desc.eventGroups sample.header.serviceMetadata.len.toNat ↔
      group ∈ desc.described
  types : ∀ desc ∈ sample.header.serviceMetadata.described,
    desc.typ.toNat ∉ [0, 1] ∧ desc.typ.toNat % 256 ∉ [0, 2]

/-! ### One event -/

section event

variable {header : SomeipTunnelHeader} {desc : SomeIPEventDesc}

/-- **The cast of the type** keeps the meaning only of numbers that mean nothing on both sides. -/
theorem mirrorsType_iff (typ : UInt32) :
    MirrorsType typ typ.toUInt8 ↔ typ.toNat ∉ [0, 1] ∧ typ.toNat % 256 ∉ [0, 2] := by
  have hcast : ∀ n : ℕ, n < 256 → (typ.toUInt8 = UInt8.ofNat n ↔ typ.toNat % 256 = n) := by
    intro n hn
    rw [← UInt8.toNat_inj, UInt32.toNat_toUInt8, UInt8.toNat_ofNat']
    omega
  have hevent := hcast 0 (by omega)
  have hfield := hcast 2 (by omega)
  simp only [MirrorsType, etField, etEvent, EventType.ofRaw, mem_cons, not_mem_nil,
    or_false]
  rw [show (0x02 : UInt8) = UInt8.ofNat 2 from rfl, show (0x00 : UInt8) = UInt8.ofNat 0 from rfl,
    hevent, hfield]
  obtain h | h | h : typ.toNat = 0 ∨ typ.toNat = 1 ∨ 2 ≤ typ.toNat := by omega
  · simp [h]
  · simp [h]
  · have hnone : [EventType.field, EventType.event][typ.toNat]? = none :=
      List.getElem?_eq_none h
    simp only [hnone]
    simp
    omega

/-- What the bridge announces for an event. -/
def announcementOf (header : SomeipTunnelHeader) (desc : SomeIPEventDesc) : Announcement :=
  ⟨header.serviceId, header.instanceId, desc.eventId, groupSet header.serviceMetadata desc,
    desc.typ.toUInt8⟩

theorem mirrorsEvent_iff : MirrorsEvent header desc (announcementOf header desc) ↔
      (∀ group, group ∈ first desc.eventGroups header.serviceMetadata.len.toNat ↔
        group ∈ desc.described) ∧ desc.typ.toNat ∉ [0, 1] ∧ desc.typ.toNat % 256 ∉ [0, 2] := by
  rw [← mirrorsType_iff]
  constructor
  · rintro ⟨-, -, -, hgroups, htype⟩
    exact ⟨fun group => mem_groupSet.symm.trans (hgroups group), htype⟩
  · rintro ⟨hgroups, htype⟩
    exact ⟨rfl, rfl, rfl, fun group => mem_groupSet.trans (hgroups group), htype⟩

theorem offeredEvents_offered (header : SomeipTunnelHeader) : offeredEvents (offered header) =
      header.serviceMetadata.described.map (announcementOf header) := by
  simp [offeredEvents, offered, filterMap_map, announcementOf]

theorem requestedEvents_requested (header : SomeipTunnelHeader) :
    requestedEvents (requested header) =
      header.serviceMetadata.described.map (announcementOf header) := by
  unfold requestedEvents requested
  rw [filterMap_append, filterMap_flatMap]
  simp only [filterMap_cons_none, filterMap_nil, append_nil]
  exact (map_eq_flatMap ..).symm

/-- The subscribed group is one of the set. -/
theorem subscribedGroup_mem (h : header.serviceMetadata.len.toNat ≠ 0) :
    subscribedGroup header.serviceMetadata desc ∈
      first desc.eventGroups header.serviceMetadata.len.toNat :=
  mem_groupSet.mp (mem_of_mem_head? (head?_groupSet h))

end event

/-! ### The whole service -/

section service

variable {sample : Sample}

/-- Each described event is mirrored iff the description is as the bridge needs it. -/
theorem forall₂_mirrorsEvent_iff (header : SomeipTunnelHeader) :
    List.Forall₂ (MirrorsEvent header) header.serviceMetadata.described
        (header.serviceMetadata.described.map (announcementOf header)) ↔
      ∀ desc ∈ header.serviceMetadata.described,
        (∀ group, group ∈ first desc.eventGroups header.serviceMetadata.len.toNat ↔
          group ∈ desc.described) ∧ desc.typ.toNat ∉ [0, 1] ∧ desc.typ.toNat % 256 ∉ [0, 2] := by
  rw [forall₂_map_right_iff, forall₂_same]
  simp only [mirrorsEvent_iff]

/-- A described service stays inside of the arrays iff its payload can be logged and there are at
most four events. -/
theorem Sample.WellDescribed.inBounds_iff (h : sample.WellDescribed) :
    sample.InBounds ↔ sample.payload.length.toNat ≤ 1500 ∧
      sample.header.serviceMetadata.len.toNat ≤ 4 :=
  ⟨fun hin => ⟨hin.payload, hin.service h.service⟩, fun ⟨hpay, hlen⟩ =>
    ⟨⟨h.events, fun desc hd => (h.groups desc hd).2⟩, hpay, fun _ => hlen⟩⟩

theorem Sample.mirrorable_iff (hin : sample.InBounds) (h : sample.WellDescribed) :
    sample.Mirrorable ↔ ∀ desc ∈ sample.header.serviceMetadata.described,
      (∀ group, group ∈ first desc.eventGroups sample.header.serviceMetadata.len.toNat ↔
        group ∈ desc.described) ∧ desc.typ.toNat ∉ [0, 1] ∧ desc.typ.toNat % 256 ∉ [0, 2] := by
  obtain ⟨hpay, hlen⟩ := h.inBounds_iff.mp hin
  exact ⟨fun hm desc hd => ⟨hm.groups desc hd, hm.types desc hd⟩, fun hm =>
    ⟨hpay, hlen, fun desc hd => (hm desc hd).1, fun desc hd => (hm desc hd).2⟩⟩

/-- If an event has the groups that the bridge takes, it is in the one that is subscribed. -/
theorem exists_subscribe_mem_requested {header : SomeipTunnelHeader} {desc : SomeIPEventDesc}
    (hd : desc ∈ header.serviceMetadata.described)
    (hgroups : ∀ group, group ∈ first desc.eventGroups header.serviceMetadata.len.toNat ↔
      group ∈ desc.described) : ∃ group ∈ desc.described,
      .subscribe header.serviceId header.instanceId group ∈ requested header := by
  have h0 : header.serviceMetadata.len.toNat ≠ 0 := by
    intro h0
    simp [ServiceDescEntry.described, first, h0] at hd
  refine ⟨_, (hgroups _).mp (subscribedGroup_mem h0), ?_⟩
  rw [requested, mem_append, mem_flatMap]
  exact Or.inl ⟨desc, hd, by simp⟩

/-- **The descriptions that the bridge mirrors**: for every sample that describes a service, the
events that are offered or requested mirror the description, and every event to be found is in a
subscribed group, if and only if the sample is `Mirrorable`.
Source: `iceoryx2_bridge.cpp`, `incommingMsg`, lines 168–199 -/
theorem service_mirrored_iff (t : State) (sample : Sample) (h : sample.WellDescribed) :
    t.Mirrors sample ↔ sample.Mirrorable := by
  unfold State.Mirrors
  rw [State.incommingMsg_eq]
  by_cases hin : sample.InBounds
  · rw [if_pos hin, Sample.mirrorable_iff hin h, ← forall₂_mirrorsEvent_iff]
    rcases h.service with htype | htype
    · simp only [State.handle, htype, Except.ok.injEq, exists_eq_left', forall_const,
        offeredEvents_offered]
      simp
    · simp only [State.handle, htype, Except.ok.injEq, exists_eq_left', forall_const,
        requestedEvents_requested]
      constructor
      · rintro ⟨-, hmirror, -⟩
        exact hmirror
      · intro hmirror
        refine ⟨by simp, hmirror, fun desc hd => ?_⟩
        exact exists_subscribe_mem_requested hd
          ((forall₂_mirrorsEvent_iff sample.header).mp hmirror desc hd).1
  · rw [if_neg hin]
    constructor
    · rintro ⟨calls, hcalls, -⟩
      cases hcalls
    · intro hm
      exact absurd (h.inBounds_iff.mpr ⟨hm.payload, hm.events⟩) hin

/-- Two events with two groups each and a number that is no type. -/
def twoEvents : Sample :=
  sampleWith .findService 0 [⟨0x8001, #v[1, 2, 0, 0], 2, 3⟩, ⟨0x8002, #v[2, 1, 0, 0], 2, 3⟩] []

theorem service_mirrored_iff_twoEvents : State.new.Mirrors twoEvents ↔ twoEvents.Mirrorable :=
  service_mirrored_iff _ _ (by decide +kernel)

/-- One field with two groups. -/
def fieldWithTwoGroups : Sample :=
  sampleWith .offerService 0 [⟨0x8001, #v[1, 2, 0, 0], 2, 0⟩] []

/-- It is offered with its first group only, and as an event. -/
theorem field_offered_as_event : fieldWithTwoGroups.WellDescribed ∧
      State.new.incommingMsg fieldWithTwoGroups =
        .ok [.offerEvent 0x1234 1 0x8001 [1] etEvent, .offerService 0x1234 1] ∧
      ¬ State.new.Mirrors fieldWithTwoGroups := by
  have hcalls : State.new.incommingMsg fieldWithTwoGroups =
      .ok [.offerEvent 0x1234 1 0x8001 [1] etEvent, .offerService 0x1234 1] := by
    rw [State.incommingMsg_eq]
    decide +kernel
  have hdesc : fieldWithTwoGroups.header.serviceMetadata.described =
      [⟨0x8001, #v[1, 2, 0, 0], 2, 0⟩] := by
    decide +kernel
  refine ⟨by decide +kernel, hcalls, ?_⟩
  rintro ⟨calls, hok, hoffer, -⟩
  obtain rfl := Except.ok.inj (hcalls.symm.trans hok)
  have hmirror := hoffer (by decide +kernel)
  rw [hdesc] at hmirror
  obtain ⟨hevent, -⟩ := forall₂_cons.mp hmirror
  exact absurd ((hevent.groups 2).mpr (by decide)) (by decide)

end service

end SomeipTunnel.Tunnel
