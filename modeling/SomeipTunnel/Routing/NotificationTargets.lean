import Mathlib.Data.List.Dedup
import SomeipTunnel.Lib.Loop

/-!
# Whom a notification is sent to

For a notification to other hosts, `send` collects the targets of all eventgroups of the event, the
endpoints of the subscribers and the multicast addresses, in a set, and sends to each of them through
the TCP or the UDP server endpoint. The branch for the UDP endpoint is also taken by a reliable target
if there is no TCP endpoint, and a multicast address is collected whether there is a UDP endpoint or
not; the loop that sends goes by the kind of the target alone.

`notification_targets_iff`: every subscriber that should get the notification gets it once, and nobody
else, iff an event that is sent unreliably has no reliable subscriber in an eventgroup that is not
multicast while only the UDP endpoint exists, and no eventgroup that is multicast while only the TCP
endpoint exists. In these two cases the missing endpoint is used.

Endpoint definitions are shared, one for an address with a port and a kind, so a set of pointers to
them is a set of values.

Source: vsomeip/implementation/routing/src/routing_manager_impl.cpp, eventgroupinfo.cpp
-/

namespace SomeipTunnel.Routing

/-- Source: `reliability_type_e` -/
inductive ReliabilityType where
  | unreliable
  | reliable
  | both
  | unknown

/-- The event is sent reliably. -/
def ReliabilityType.isReliable : ReliabilityType → Bool
  | .reliable | .both => true
  | _ => false

def ReliabilityType.isUnreliable : ReliabilityType → Bool
  | .unreliable | .both => true
  | _ => false

/-- The endpoints of a subscription; `P` has the addresses with their ports. -/
structure SubscriberEndpoints (P : Type*) where
  reliable : Option P
  unreliable : Option P
  hasParent : Bool

/-- The part of an `eventgroupinfo` that `send` asks for. -/
structure EventgroupTargets (P : Type*) where
  subscriptions : List (SubscriberEndpoints P)
  /-- The address with its port, if it is a multicast address. -/
  multicast : Option P
  threshold : UInt8

/-- An address with its port, and whether it is reliable. Source: `endpoint_definition` -/
abbrev Target (P : Type*) := P × Bool

/-! ### Collecting and sending -/

variable {P : Type*}

namespace EventgroupTargets

variable (g : EventgroupTargets P)

/-- Source: `eventgroupinfo::get_unreliable_target_count` -/
def getUnreliableTargetCount : ℕ :=
  g.subscriptions.countP fun s => !s.hasParent && s.unreliable.isSome

/-- Source: `eventgroupinfo::is_sending_multicast` -/
def isSendingMulticast : Bool :=
  g.multicast.isSome && g.threshold ≠ 0 && g.threshold.toNat ≤ g.getUnreliableTargetCount

/-- An eventgroup that is sent to by multicast has a multicast address. -/
theorem exists_multicast {g : EventgroupTargets P} (h : g.isSendingMulticast = true) :
    ∃ p, g.multicast = some p := by
  simp only [isSendingMulticast, Bool.and_eq_true] at h
  exact Option.isSome_iff_exists.mp h.1.1

variable [DecidableEq P]

/-- Source: `eventgroupinfo::get_unicast_targets` -/
def getUnicastTargets : List (Target P) :=
  (g.subscriptions.flatMap fun s =>
    (s.reliable.map (·, true)).toList ++ (s.unreliable.map (·, false)).toList).dedup

end EventgroupTargets

/-- What a notification is sent by and for: the reliability of the event, whether the TCP and the UDP
server endpoint exist, and the eventgroups that are found. -/
structure Notification (P : Type*) where
  reliability : ReliabilityType
  tcp : Bool
  udp : Bool
  eventgroups : List (EventgroupTargets P)

namespace Notification

variable [DecidableEq P] (n : Notification P)

/-- One unicast target of an eventgroup. -/
def insertUnicast (g : EventgroupTargets P) (ts : List (Target P)) (t : Target P) :
    List (Target P) :=
  if t.2 && n.tcp then
    if n.reliability.isReliable then ts.insert t else ts
  else if n.udp && !g.isSendingMulticast then
    if n.reliability.isUnreliable then ts.insert t else ts
  else ts

/-- The multicast target of an eventgroup. -/
def insertMulticast (g : EventgroupTargets P) (ts : List (Target P)) : List (Target P) :=
  if g.isSendingMulticast then
    if n.reliability.isUnreliable then
      match g.multicast with
      | some p => ts.insert (p, false)
      | none => ts
    else ts
  else ts

/-- One round of the loop over the eventgroups. -/
def insertGroup (ts : List (Target P)) (g : EventgroupTargets P) : List (Target P) :=
  n.insertMulticast g (g.getUnicastTargets.foldl (n.insertUnicast g) ts)

/-- Source: `routing_manager_impl::send`, `its_targets` -/
def targets : List (Target P) :=
  if n.udp || n.tcp then n.eventgroups.foldl n.insertGroup [] else []

/-- The server endpoint that a target is sent to by exists. -/
def hasEndpoint (t : Target P) : Bool := if t.2 then n.tcp else n.udp

/-- Source: `routing_manager_impl::send`, the targets that a notification is sent to. There is no
result if a missing endpoint is used. -/
def send : Option (List (Target P)) :=
  n.targets.mapM fun t => if n.hasEndpoint t then some t else none

/-- Who should get the notification: a reliable subscriber over TCP if the event is sent reliably; an
unreliable subscriber of an eventgroup that is not multicast, and a multicast address, over UDP if it
is sent unreliably. -/
def Wanted : Target P → Prop
  | (p, true) => n.reliability.isReliable = true ∧ n.tcp = true ∧
      ∃ g ∈ n.eventgroups, ∃ s ∈ g.subscriptions, s.reliable = some p
  | (p, false) => n.reliability.isUnreliable = true ∧ n.udp = true ∧
      ∃ g ∈ n.eventgroups, if g.isSendingMulticast then g.multicast = some p
        else ∃ s ∈ g.subscriptions, s.unreliable = some p

/-- **The notification is delivered** once to each one who should get it and to nobody else. -/
def Delivered (sent : Option (List (Target P))) : Prop :=
  ∃ ts, sent = some ts ∧ ts.Nodup ∧ ∀ t, t ∈ ts ↔ n.Wanted t

/-- If only one server endpoint exists, nothing of an event that is sent unreliably is for the
other. -/
def Equipped : Prop :=
  n.reliability.isUnreliable = true → ∀ g ∈ n.eventgroups,
    (n.tcp = false → n.udp = true → g.isSendingMulticast = false →
      ∀ s ∈ g.subscriptions, s.reliable = none) ∧
    (n.udp = false → n.tcp = true → g.isSendingMulticast = false)

/-! ### The targets -/

variable {n} {g : EventgroupTargets P} {t : Target P} {p : P}

theorem nodup_insertGroup (ts : List (Target P)) (g : EventgroupTargets P) (h : ts.Nodup) :
    (n.insertGroup ts g).Nodup := by
  have hunicast : (g.getUnicastTargets.foldl (n.insertUnicast g) ts).Nodup := by
    apply List.foldlRecOn _ _ h
    intro ts h t _
    unfold insertUnicast
    split_ifs <;> first | exact h | exact h.insert
  unfold insertGroup insertMulticast
  split_ifs
  · cases g.multicast with
    | none => exact hunicast
    | some p => exact hunicast.insert
  · exact hunicast
  · exact hunicast

theorem nodup_targets (n : Notification P) : n.targets.Nodup := by
  unfold targets
  split_ifs
  · exact List.foldlRecOn _ _ List.nodup_nil fun ts h g _ => nodup_insertGroup ts g h
  · exact List.nodup_nil

/-- What the loop over the unicast targets takes: without TCP endpoint, a reliable target falls into
the branch for UDP. -/
def Takes (n : Notification P) (g : EventgroupTargets P) (t : Target P) : Prop :=
  if t.2 && n.tcp then n.reliability.isReliable = true
  else n.udp = true ∧ g.isSendingMulticast = false ∧ n.reliability.isUnreliable = true

theorem mem_insertUnicast (ts : List (Target P)) (x : Target P) :
    t ∈ n.insertUnicast g ts x ↔ t ∈ ts ∨ (n.Takes g x ∧ t = x) := by
  unfold insertUnicast Takes
  cases x.2 && n.tcp
  · cases n.udp <;> cases g.isSendingMulticast <;> cases n.reliability.isUnreliable <;>
      simp [or_comm]
  · cases n.reliability.isReliable <;> simp [or_comm]

theorem mem_insertMulticast (ts : List (Target P)) :
    t ∈ n.insertMulticast g ts ↔ t ∈ ts ∨ (g.isSendingMulticast = true ∧
      n.reliability.isUnreliable = true ∧ t.2 = false ∧ g.multicast = some t.1) := by
  obtain ⟨p, r⟩ := t
  unfold insertMulticast
  cases g.isSendingMulticast
  · simp
  · cases n.reliability.isUnreliable
    · simp
    · cases g.multicast with
      | none => simp
      | some q => simp [or_comm, and_comm, eq_comm]

/-- What one eventgroup adds. -/
def Adds (n : Notification P) (g : EventgroupTargets P) (t : Target P) : Prop :=
  (t ∈ g.getUnicastTargets ∧ n.Takes g t) ∨ (g.isSendingMulticast = true ∧
    n.reliability.isUnreliable = true ∧ t.2 = false ∧ g.multicast = some t.1)

theorem mem_insertGroup (ts : List (Target P)) (g : EventgroupTargets P) (t : Target P) :
    t ∈ n.insertGroup ts g ↔ t ∈ ts ∨ n.Adds g t := by
  rw [insertGroup, mem_insertMulticast,
    Loop.foldl_collects (P := (t ∈ ·)) fun ts x _ => mem_insertUnicast ts x, or_assoc]
  refine or_congr_right (or_congr_left ⟨?_, ?_⟩)
  · rintro ⟨x, hx, htakes, rfl⟩
    exact ⟨hx, htakes⟩
  · rintro ⟨ht, htakes⟩
    exact ⟨t, ht, htakes, rfl⟩

theorem mem_targets : t ∈ n.targets ↔
    (n.udp = true ∨ n.tcp = true) ∧ ∃ g ∈ n.eventgroups, n.Adds g t := by
  unfold targets
  split_ifs with h
  · rw [Loop.foldl_collects (P := (t ∈ ·)) fun ts g _ => mem_insertGroup ts g t]
    simp [(Bool.or_eq_true _ _).mp h]
  · rw [Bool.or_eq_true] at h
    simp [h]

theorem mem_getUnicastTargets : t ∈ g.getUnicastTargets ↔
    ∃ s ∈ g.subscriptions, (if t.2 then s.reliable else s.unreliable) = some t.1 := by
  obtain ⟨p, r⟩ := t
  cases r <;> simp [EventgroupTargets.getUnicastTargets]

/-! ### Sending -/

/-- Sending succeeds iff each target has its endpoint, and then goes to all of them. -/
theorem send_eq_some {ts : List (Target P)} :
    n.send = some ts ↔ (∀ t ∈ n.targets, n.hasEndpoint t = true) ∧ n.targets = ts := by
  unfold send
  generalize n.targets = collected
  induction collected generalizing ts with
  | nil => simp
  | cons x xs ih =>
      rw [List.mapM_cons, List.forall_mem_cons]
      cases n.hasEndpoint x with
      | false => simp
      | true =>
          simp only [if_true, Option.bind_eq_bind, Option.bind_some, Option.bind_eq_some_iff, ih,
            Option.pure_def, Option.some.injEq, true_and]
          constructor
          · rintro ⟨_, ⟨hxs, rfl⟩, rfl⟩
            exact ⟨hxs, rfl⟩
          · rintro ⟨hxs, rfl⟩
            exact ⟨xs, ⟨hxs, rfl⟩, rfl⟩

/-- What is collected has its endpoint exactly under the condition. -/
theorem hasEndpoint_iff_equipped : (∀ t ∈ n.targets, n.hasEndpoint t = true) ↔ n.Equipped := by
  constructor
  · intro h hunreliable g hg
    refine ⟨fun htcp hudp hunicast s hs => ?_, fun hudp htcp => ?_⟩
    · -- a reliable subscriber would be collected without the TCP endpoint
      rw [Option.eq_none_iff_forall_ne_some]
      intro p hp
      have hmem : (p, true) ∈ n.targets :=
        mem_targets.mpr ⟨.inl hudp, g, hg, .inl ⟨mem_getUnicastTargets.mpr ⟨s, hs, hp⟩, by
          simp [Takes, htcp, hudp, hunicast, hunreliable]⟩⟩
      have := h _ hmem
      simp [hasEndpoint, htcp] at this
    · -- the multicast address would be collected without the UDP endpoint
      by_contra hmulticast
      rw [Bool.not_eq_false] at hmulticast
      obtain ⟨p, hp⟩ := EventgroupTargets.exists_multicast hmulticast
      have hmem : (p, false) ∈ n.targets :=
        mem_targets.mpr ⟨.inr htcp, g, hg, .inr ⟨hmulticast, hunreliable, rfl, hp⟩⟩
      have := h _ hmem
      simp [hasEndpoint, hudp] at this
  · intro h t ht
    obtain ⟨hany, g, hg, hadds⟩ := mem_targets.mp ht
    obtain ⟨p, r⟩ := t
    cases r with
    | true =>
        -- a reliable target is a unicast one
        rcases hadds with ⟨hmem, htakes⟩ | ⟨_, _, hkind, _⟩
        · obtain ⟨s, hs, hp⟩ := mem_getUnicastTargets.mp hmem
          by_contra htcp
          have htcp : n.tcp = false := by simpa [hasEndpoint] using htcp
          obtain ⟨hudp, hunicast, hunreliable⟩ : _ ∧ _ ∧ _ := by simpa [Takes, htcp] using htakes
          have := (h hunreliable g hg).1 htcp hudp hunicast s hs
          simp [this] at hp
        · exact absurd hkind (by simp)
    | false =>
        by_contra hudp
        have hudp : n.udp = false := by simpa [hasEndpoint] using hudp
        rcases hadds with ⟨_, htakes⟩ | ⟨hmulticast, hunreliable, _, _⟩
        · simp [Takes, hudp] at htakes
        · have htcp : n.tcp = true := by simpa [hudp] using hany
          have := (h hunreliable g hg).2 hudp htcp
          simp [this] at hmulticast

/-- If all that is collected has its endpoint, it is what should be sent to. -/
theorem mem_targets_iff_wanted (h : ∀ t ∈ n.targets, n.hasEndpoint t = true) (t : Target P) :
    t ∈ n.targets ↔ n.Wanted t := by
  obtain ⟨p, r⟩ := t
  cases r with
  | true =>
      constructor
      · intro ht
        have htcp : n.tcp = true := h _ ht
        obtain ⟨_, g, hg, ⟨hmem, htakes⟩ | ⟨_, _, hkind, _⟩⟩ := mem_targets.mp ht
        · obtain ⟨s, hs, hp⟩ := mem_getUnicastTargets.mp hmem
          exact ⟨by simpa [Takes, htcp] using htakes, htcp, g, hg, s, hs, hp⟩
        · exact absurd hkind (by simp)
      · rintro ⟨hreliable, htcp, g, hg, s, hs, hp⟩
        exact mem_targets.mpr ⟨.inr htcp, g, hg, .inl ⟨mem_getUnicastTargets.mpr ⟨s, hs, hp⟩, by
          simpa [Takes, htcp] using hreliable⟩⟩
  | false =>
      constructor
      · intro ht
        have hudp : n.udp = true := h _ ht
        obtain ⟨_, g, hg, ⟨hmem, htakes⟩ | ⟨hmulticast, hunreliable, _, hp⟩⟩ := mem_targets.mp ht
        · obtain ⟨s, hs, hp⟩ := mem_getUnicastTargets.mp hmem
          obtain ⟨_, hunicast, hunreliable⟩ : _ ∧ _ ∧ _ := by simpa [Takes] using htakes
          exact ⟨hunreliable, hudp, g, hg, by simpa [hunicast] using ⟨s, hs, hp⟩⟩
        · exact ⟨hunreliable, hudp, g, hg, by simpa [hmulticast] using hp⟩
      · rintro ⟨hunreliable, hudp, g, hg, hp⟩
        refine mem_targets.mpr ⟨.inl hudp, g, hg, ?_⟩
        split_ifs at hp with hmulticast
        · exact .inr ⟨hmulticast, hunreliable, rfl, hp⟩
        · obtain ⟨s, hs, hp⟩ := hp
          exact .inl ⟨mem_getUnicastTargets.mpr ⟨s, hs, hp⟩, by
            simpa [Takes, hudp, hunreliable] using hmulticast⟩

/-- **Notification targets.** A notification is sent once to each one who should get it, to nobody
else and by endpoints that exist, iff nothing of it is for an endpoint that does not exist. -/
theorem notification_targets_iff (n : Notification P) : n.Delivered n.send ↔ n.Equipped := by
  rw [← hasEndpoint_iff_equipped]
  constructor
  · rintro ⟨ts, hsent, _⟩
    exact (send_eq_some.mp hsent).1
  · intro h
    exact ⟨n.targets, send_eq_some.mpr ⟨h, rfl⟩, nodup_targets n, mem_targets_iff_wanted h⟩

/-- A subscriber by TCP, an event that is sent both ways and a UDP endpoint alone: the subscriber is
sent to by the TCP endpoint, which does not exist. -/
theorem reliable_target_without_tcp :
    let n : Notification ℕ := ⟨.both, false, true, [⟨[⟨some 30501, none, false⟩], none, 0⟩]⟩
    n.targets = [(30501, true)] ∧ n.send = none ∧ ¬ n.Delivered n.send := by
  have hsend : (⟨.both, false, true, [⟨[⟨some 30501, none, false⟩], none, 0⟩]⟩ :
      Notification ℕ).send = none := by decide
  refine ⟨by decide, hsend, ?_⟩
  rintro ⟨ts, hsent, _⟩
  rw [hsend] at hsent
  exact absurd hsent (by simp)

end Notification

end SomeipTunnel.Routing
