import Mathlib

/-!
# Remote subscriptions

An eventgroup keeps the subscriptions of other hosts in a table by their ids. A subscription that is
received is compared with those in the table; the first one that is equal is refreshed with its
clients. Two subscriptions are equal if the endpoints that both of them have are the same, so that an
endpoint that one of them lacks is not compared. The objects are on a heap, as the code holds them by
shared pointers.

`subscription_identity_iff` says on which sets of subscriptions the comparison tells subscribers apart:
those without a mixed pair, one subscription with nothing but a reliable endpoint and one with nothing
but an unreliable endpoint, and without a bridge, a subscription with one endpoint between two that
have this one and differ in the other.

Source: vsomeip/implementation/routing/src/remote_subscription.cpp, eventgroupinfo.cpp
-/

/-- The arguments of `endpoint_definition::get`. -/
structure SomeipTunnel.Sd.Endpoint where
  address : List UInt8
  port : UInt16
  isReliable : Bool
deriving DecidableEq

namespace SomeipTunnel.Routing

open Sd (Endpoint)

/-! ### The code -/

/-- Source: `remote_subscription_state_e`. -/
inductive RemoteSubscriptionState
  | pending
  | acked
  | nacked
  | error
  | unknown
deriving DecidableEq

/-- Source: `remote_subscription::destiny`. -/
inductive Destiny
  | none
  | expire
  | forward
deriving DecidableEq

/-- The object a shared pointer points to. -/
abbrev Ptr := ℕ

/-- Service, instance and eventgroup. -/
abbrev EventgroupKey := UInt16 × UInt16 × UInt16

/-- Source: `remote_subscription`. Time points are numbers, 0 is the time point of a new client. -/
structure RemoteSubscription where
  id : UInt16
  isInitial : Bool
  forceInitialEvents : Bool
  parent : Option Ptr
  /-- The eventgroup, as long as it lives; there is one object for each key. -/
  eventgroupinfo : Option EventgroupKey
  ttl : ℕ
  clients : AList fun _ : UInt16 => RemoteSubscriptionState × ℕ
  /-- The endpoint definitions are interned, so that their pointers are equal if their values are.
  Source: `endpoint_definition::get`. -/
  reliable : Option Endpoint
  unreliable : Option Endpoint
  answers : ℕ
  destiny : Destiny

namespace RemoteSubscription

variable (s : RemoteSubscription)

/-- Two endpoints are compared if both are there. -/
def sameIfBoth : Option Endpoint → Option Endpoint → Bool
  | some a, some b => a = b
  | _, _ => true

/-- Source: `remote_subscription::operator==`. -/
def equals (other : RemoteSubscription) : Bool :=
  s.eventgroupinfo.isSome && other.eventgroupinfo.isSome &&
    s.eventgroupinfo = other.eventgroupinfo && sameIfBoth s.unreliable other.unreliable &&
      sameIfBoth s.reliable other.reliable

end RemoteSubscription

/-- The remote subscriptions that are allocated. -/
abbrev Heap := Ptr → RemoteSubscription

/-- Source: `eventgroupinfo`, the part with the remote subscriptions. The table is in the order of the
ids. -/
structure Eventgroupinfo where
  subscriptions : List (UInt16 × Ptr)
  id : UInt16
  remoteSubscribersCount : AList fun _ : List UInt8 => UInt8
  maxRemoteSubscribers : UInt8

namespace Eventgroupinfo

variable (g : Eventgroupinfo)

/-- The first subscription of the table that is equal to the given one.
Source: `eventgroupinfo::update_remote_subscription`, the search. -/
def findEqual (h : Heap) (p : Ptr) : Option (UInt16 × Ptr) :=
  g.subscriptions.find? fun i => (h i.2).equals (h p)

end Eventgroupinfo

/-! ### What the comparison tells apart -/

namespace RemoteSubscription

variable {s x y z : RemoteSubscription} {k : EventgroupKey}

/-- Two endpoints do not differ, where both are there. -/
def Compatible (a b : Option Endpoint) : Prop := ∀ e ∈ a, ∀ e' ∈ b, e = e'

theorem sameIfBoth_eq_true {a b : Option Endpoint} : sameIfBoth a b = true ↔ Compatible a b := by
  rcases a with _ | a
  · simp [sameIfBoth, Compatible]
  rcases b with _ | b
  · simp [sameIfBoth, Compatible]
  · simp [sameIfBoth, Compatible, eq_comm]

theorem Compatible.symm {a b : Option Endpoint} (h : Compatible a b) : Compatible b a :=
  fun e he e' he' => (h e' he' e he).symm

theorem compatible_self (a : Option Endpoint) : Compatible a a :=
  fun _ he _ he' => Option.mem_unique he he'

/-- Subscriptions of one living eventgroup are equal if their endpoints do not differ. -/
theorem equals_iff (hx : x.eventgroupinfo = some k) (hy : y.eventgroupinfo = some k) :
    x.equals y = true ↔ Compatible x.reliable y.reliable ∧ Compatible x.unreliable y.unreliable := by
  simp only [equals, hx, hy, Option.isSome_some, Bool.true_and, decide_true, Bool.and_eq_true,
    sameIfBoth_eq_true]
  exact and_comm

/-- One endpoint of the two is the same. -/
def SharesEndpoint (x y : RemoteSubscription) : Prop :=
  (∃ e, x.reliable = some e ∧ y.reliable = some e) ∨
    ∃ e, x.unreliable = some e ∧ y.unreliable = some e

def ReliableOnly (s : RemoteSubscription) : Prop := s.reliable ≠ none ∧ s.unreliable = none

def UnreliableOnly (s : RemoteSubscription) : Prop := s.unreliable ≠ none ∧ s.reliable = none

end RemoteSubscription

open RemoteSubscription

/-- The comparison tells the subscribers of a set of subscriptions apart. -/
structure Identifies (S : Set RemoteSubscription) : Prop where
  refl : ∀ x ∈ S, x.equals x = true
  symm : ∀ x ∈ S, ∀ y ∈ S, x.equals y = true → y.equals x = true
  trans : ∀ x ∈ S, ∀ y ∈ S, ∀ z ∈ S, x.equals y = true → y.equals z = true → x.equals z = true
  /-- A subscription with a reliable endpoint only and one with an unreliable endpoint only are
  not equal. -/
  kinds : ∀ x ∈ S, ∀ y ∈ S, x.equals y = true → ¬ (x.ReliableOnly ∧ y.UnreliableOnly) ∧
    ¬ (x.UnreliableOnly ∧ y.ReliableOnly)
  /-- Endpoints of the same kind do not differ. -/
  endpoints : ∀ x ∈ S, ∀ y ∈ S, x.equals y = true →
    Compatible x.reliable y.reliable ∧ Compatible x.unreliable y.unreliable
  /-- A subscription that is refreshed belongs to the same subscriber. -/
  refresh : ∀ (h : Heap) (g : Eventgroupinfo) (p : Ptr), (∀ i ∈ g.subscriptions, h i.2 ∈ S) →
    h p ∈ S → ∀ i, g.findEqual h p = some i → (h i.2).SharesEndpoint (h p)

/-- No subscription without an endpoint of one kind stands between two that have different ones of
this kind and the same of the other. -/
def NoBridge (f f' : RemoteSubscription → Option Endpoint) (S : Set RemoteSubscription) : Prop :=
  ∀ x ∈ S, ∀ y ∈ S, ∀ z ∈ S, f y = none → f' x = f' y → f' z = f' y → Compatible (f x) (f z)

/-- What the subscriptions have to be like for the comparison to tell subscribers apart. -/
structure Distinguishable (S : Set RemoteSubscription) : Prop where
  endpoint : ∀ x ∈ S, x.reliable ≠ none ∨ x.unreliable ≠ none
  unmixed : ∀ x ∈ S, ∀ y ∈ S, ¬ (x.ReliableOnly ∧ y.UnreliableOnly)
  reliable : NoBridge RemoteSubscription.reliable RemoteSubscription.unreliable S
  unreliable : NoBridge RemoteSubscription.unreliable RemoteSubscription.reliable S

section

variable {S : Set RemoteSubscription} {k : EventgroupKey}

/-- Two equal subscriptions share an endpoint, if they are not a mixed pair. -/
theorem sharesEndpoint_of_compatible {x y : RemoteSubscription}
    (hx : x.reliable ≠ none ∨ x.unreliable ≠ none) (hy : y.reliable ≠ none ∨ y.unreliable ≠ none)
    (hxy : ¬ (x.ReliableOnly ∧ y.UnreliableOnly)) (hyx : ¬ (y.ReliableOnly ∧ x.UnreliableOnly))
    (hr : Compatible x.reliable y.reliable) (hu : Compatible x.unreliable y.unreliable) :
    x.SharesEndpoint y := by
  rcases hxr : x.reliable with _ | a
  · -- only the unreliable endpoint of `x` is left, and `y` has one too
    have hxu : x.unreliable ≠ none := hx.resolve_left (not_not.mpr hxr)
    obtain ⟨a, ha⟩ := Option.ne_none_iff_exists'.mp hxu
    have hyu : y.unreliable ≠ none := by
      intro hyu
      exact hyx ⟨⟨hy.resolve_right (not_not.mpr hyu), hyu⟩, hxu, hxr⟩
    obtain ⟨b, hb⟩ := Option.ne_none_iff_exists'.mp hyu
    exact .inr ⟨a, ha, by rw [hb, hu a ha b hb]⟩
  · rcases hyr : y.reliable with _ | b
    · have hyu : y.unreliable ≠ none := hy.resolve_left (not_not.mpr hyr)
      obtain ⟨b, hb⟩ := Option.ne_none_iff_exists'.mp hyu
      have hxu : x.unreliable ≠ none := by
        intro hxu
        exact hxy ⟨⟨by rw [hxr]; exact Option.some_ne_none a, hxu⟩, hyu, hyr⟩
      obtain ⟨a, ha⟩ := Option.ne_none_iff_exists'.mp hxu
      exact .inr ⟨a, ha, by rw [hb, hu a ha b hb]⟩
    · exact .inl ⟨a, hxr, by rw [hyr, hr a hxr b hyr]⟩

/-- Endpoints of one kind are compared through a third subscription, if there is no bridge. -/
theorem compatible_trans {f f' : RemoteSubscription → Option Endpoint} (hbridge : NoBridge f f' S)
    {x y z : RemoteSubscription} (hx : x ∈ S) (hy : y ∈ S) (hz : z ∈ S)
    (hxf : f x ≠ none → f y = none → f' x = f' y) (hzf : f z ≠ none → f y = none → f' z = f' y)
    (hxy : Compatible (f x) (f y)) (hyz : Compatible (f y) (f z)) : Compatible (f x) (f z) := by
  intro a ha b hb
  rcases hfy : f y with _ | c
  · have hxne : f x ≠ none := by rw [Option.mem_def.mp ha]; exact Option.some_ne_none a
    have hzne : f z ≠ none := by rw [Option.mem_def.mp hb]; exact Option.some_ne_none b
    exact hbridge x hx y hy z hz hfy (hxf hxne hfy) (hzf hzne hfy) a ha b hb
  · exact (hxy a ha c hfy).trans (hyz c hfy b hb)

/-- An endpoint that the other one lacks leaves only the other kind, which is then the same. -/
theorem eq_of_sharesEndpoint {x y : RemoteSubscription} (h : x.SharesEndpoint y) :
    (y.reliable = none → x.unreliable = y.unreliable) ∧
      (y.unreliable = none → x.reliable = y.reliable) := by
  rcases h with ⟨e, hx, hy⟩ | ⟨e, hx, hy⟩
  · refine ⟨fun hnone => ?_, fun _ => hx.trans hy.symm⟩
    exact nomatch hnone.symm.trans hy
  · refine ⟨fun _ => hx.trans hy.symm, fun hnone => ?_⟩
    exact nomatch hnone.symm.trans hy

theorem Distinguishable.sharesEndpoint (hS : Distinguishable S)
    (hlive : ∀ x ∈ S, x.eventgroupinfo = some k) {x y : RemoteSubscription} (hx : x ∈ S) (hy : y ∈ S)
    (h : x.equals y = true) : x.SharesEndpoint y := by
  obtain ⟨hr, hu⟩ := (equals_iff (hlive x hx) (hlive y hy)).mp h
  exact sharesEndpoint_of_compatible (hS.endpoint x hx) (hS.endpoint y hy) (hS.unmixed x hx y hy)
    (hS.unmixed y hy x hx) hr hu

theorem Distinguishable.identifies (hS : Distinguishable S)
    (hlive : ∀ x ∈ S, x.eventgroupinfo = some k) : Identifies S where
  refl x hx := (equals_iff (hlive x hx) (hlive x hx)).mpr ⟨compatible_self _, compatible_self _⟩
  symm x hx y hy h := by
    obtain ⟨hr, hu⟩ := (equals_iff (hlive x hx) (hlive y hy)).mp h
    exact (equals_iff (hlive y hy) (hlive x hx)).mpr ⟨hr.symm, hu.symm⟩
  trans x hx y hy z hz hxy hyz := by
    have hshare := eq_of_sharesEndpoint (hS.sharesEndpoint hlive hx hy hxy)
    obtain ⟨hxyr, hxyu⟩ := (equals_iff (hlive x hx) (hlive y hy)).mp hxy
    obtain ⟨hyzr, hyzu⟩ := (equals_iff (hlive y hy) (hlive z hz)).mp hyz
    have hzy : z.equals y = true :=
      (equals_iff (hlive z hz) (hlive y hy)).mpr ⟨hyzr.symm, hyzu.symm⟩
    have hshare' := eq_of_sharesEndpoint (hS.sharesEndpoint hlive hz hy hzy)
    refine (equals_iff (hlive x hx) (hlive z hz)).mpr ⟨?_, ?_⟩
    · exact compatible_trans hS.reliable hx hy hz (fun _ => hshare.1) (fun _ => hshare'.1) hxyr hyzr
    · exact compatible_trans hS.unreliable hx hy hz (fun _ => hshare.2) (fun _ => hshare'.2) hxyu
        hyzu
  kinds x hx y hy _ := ⟨hS.unmixed x hx y hy, fun h => hS.unmixed y hy x hx ⟨h.2, h.1⟩⟩
  endpoints x hx y hy := (equals_iff (hlive x hx) (hlive y hy)).mp
  refresh h g p hg hp i hi := by
    have hmem := List.mem_of_find?_eq_some hi
    have hequals := List.find?_some hi
    exact hS.sharesEndpoint hlive (hg i hmem) hp hequals

theorem Identifies.distinguishable (hS : Identifies S)
    (hlive : ∀ x ∈ S, x.eventgroupinfo = some k) : Distinguishable S where
  endpoint x hx := by
    -- a subscription without endpoints is equal to itself and shares nothing
    have hfind : (Eventgroupinfo.mk [(1, 0)] 1 ∅ 0).findEqual (fun _ => x) 0 = some (1, 0) := by
      simp only [Eventgroupinfo.findEqual, List.find?_cons, hS.refl x hx]
    have hshare := hS.refresh (fun _ => x) ⟨[(1, 0)], 1, ∅, 0⟩ 0 (fun _ _ => hx) hx _ hfind
    rcases hshare with ⟨e, he, -⟩ | ⟨e, he, -⟩
    · exact .inl (by rw [he]; exact Option.some_ne_none e)
    · exact .inr (by rw [he]; exact Option.some_ne_none e)
  unmixed x hx y hy hmixed := by
    have hequals : x.equals y = true := by
      refine (equals_iff (hlive x hx) (hlive y hy)).mpr ⟨?_, ?_⟩
      · intro e _ e' he'
        exact nomatch hmixed.2.2.symm.trans he'
      · intro e he
        exact nomatch hmixed.1.2.symm.trans he
    exact (hS.kinds x hx y hy hequals).1 hmixed
  reliable x hx y hy z hz hnone hxy hzy := by
    have hequals : ∀ w ∈ S, w.unreliable = y.unreliable → w.equals y = true := by
      intro w hw hwy
      refine (equals_iff (hlive w hw) (hlive y hy)).mpr ⟨?_, ?_⟩
      · intro e _ e' he'
        exact nomatch hnone.symm.trans he'
      · rw [hwy]
        exact compatible_self _
    have hxz := hS.trans x hx y hy z hz (hequals x hx hxy) (hS.symm z hz y hy (hequals z hz hzy))
    exact (hS.endpoints x hx z hz hxz).1
  unreliable x hx y hy z hz hnone hxy hzy := by
    have hequals : ∀ w ∈ S, w.reliable = y.reliable → w.equals y = true := by
      intro w hw hwy
      refine (equals_iff (hlive w hw) (hlive y hy)).mpr ⟨?_, ?_⟩
      · rw [hwy]
        exact compatible_self _
      · intro e _ e' he'
        exact nomatch hnone.symm.trans he'
    have hxz := hS.trans x hx y hy z hz (hequals x hx hxy) (hS.symm z hz y hy (hequals z hz hzy))
    exact (hS.endpoints x hx z hz hxz).2

end

/-- **Identity of subscriptions.** For any set of subscriptions of one living eventgroup, the
comparison of the update is an equivalence that relates neither a reliable-only with an unreliable-only
subscription nor different endpoints of one kind, and refreshes a subscription only for a subscriber
that shares an endpoint with it, iff each subscription has an endpoint and there are no mixed pair and
no bridge among them. -/
theorem subscription_identity_iff (k : EventgroupKey) (S : Set RemoteSubscription)
    (hlive : ∀ x ∈ S, x.eventgroupinfo = some k) : Identifies S ↔ Distinguishable S :=
  ⟨fun h => h.distinguishable hlive, fun h => h.identifies hlive⟩

/-- A subscription that was received, with one client. -/
def received (reliable unreliable : Option Endpoint) : RemoteSubscription where
  id := 0
  isInitial := true
  forceInitialEvents := false
  parent := none
  eventgroupinfo := some (0x1234, 1, 1)
  ttl := 3
  clients := AList.singleton 0 (.pending, 0)
  reliable := reliable
  unreliable := unreliable
  answers := 1
  destiny := .none

/-- Two hosts with a UDP endpoint each. -/
theorem subscription_identity_iff_two_hosts :
    Identifies {received none (some ⟨[10, 0, 0, 1], 30490, false⟩),
      received none (some ⟨[10, 0, 0, 2], 30490, false⟩)} := by
  refine (subscription_identity_iff (0x1234, 1, 1) _ ?_).mpr ⟨?_, ?_, ?_, ?_⟩
  · rintro x (rfl | rfl) <;> rfl
  · rintro x (rfl | rfl) <;> exact .inr (Option.some_ne_none _)
  · rintro x (rfl | rfl) y _ ⟨hx, -⟩ <;> exact hx.1 rfl
  · rintro x (rfl | rfl) y _ z _ _ _ _ e he <;> exact nomatch he
  · rintro x _ y (rfl | rfl) z _ hnone <;> exact nomatch hnone

/-- The subscription of the host 10.0.0.2 over UDP is taken for a refresh of the one of the host
10.0.0.1 over TCP, and the one of the host 10.0.0.3 over TCP for a refresh of it; the first and the
last are not equal. -/
theorem subscribers_confused :
    let x := received (some ⟨[10, 0, 0, 1], 40000, true⟩) none
    let y := received none (some ⟨[10, 0, 0, 2], 30490, false⟩)
    let z := received (some ⟨[10, 0, 0, 3], 40000, true⟩) none
    x.equals y = true ∧ y.equals z = true ∧ x.equals z = false ∧
      (Eventgroupinfo.mk [(1, 0)] 1 ∅ 3).findEqual (fun p => if p = 0 then x else y) 1 =
        some (1, 0) := by
  decide

end SomeipTunnel.Routing
