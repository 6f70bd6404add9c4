import Mathlib
import SomeipTunnel.Sd.Entry

/-!
# The TTL of a subscription

The TTL of a SubscribeEventgroup entry is multiplied by the factor that is configured for the
service. The acknowledgement gets the product, of which the wire has 24 bits, and the expiration
timer multiplies it by the factor once more. `ttl_kept_iff`: the acknowledgement carries the TTL of
the entry, and both expirations are the TTL times the factor, iff the factor is one.
-/

namespace SomeipTunnel.Sd

open Codec

/-! ### Factors -/

/-- The factors by service and instance.
Source: `configuration.hpp`, `ttl_map_t` -/
abbrev TtlMap := UInt16 × UInt16 → Option UInt32

/-- A definition of a factor, with the numbers read from it. -/
structure FactorDefinition where
  service : UInt16
  inst : UInt16
  ttlFactor : UInt32

/-- Source: `configuration_impl::load_ttl_factors`, the loop -/
def loadTtlFactor (target : TtlMap) (d : FactorDefinition) : TtlMap :=
  if d.service ≠ 0xffff ∧ d.inst ≠ 0xffff ∧ 0 < d.ttlFactor then
    Function.update target (d.service, d.inst) (some d.ttlFactor)
  else target

/-- Source: `configuration_impl::load_ttl_factors` -/
def loadTtlFactors (tree : List FactorDefinition) : TtlMap :=
  tree.foldl loadTtlFactor fun _ => none

/-- Source: `service_discovery_impl::get_ttl_factor` -/
def getTtlFactor (service inst : UInt16) (ttlMap : TtlMap) : UInt32 :=
  (ttlMap (service, inst)).getD 1

theorem pos_of_foldl_loadTtlFactor (tree : List FactorDefinition) {target : TtlMap}
    (h : ∀ key factor, target key = some factor → 0 < factor) {key : UInt16 × UInt16}
    {factor : UInt32} (hkey : tree.foldl loadTtlFactor target key = some factor) : 0 < factor := by
  induction tree generalizing target with
  | nil => exact h key factor hkey
  | cons d tree ih =>
      refine ih (fun key' factor' hkey' => ?_) hkey
      rw [loadTtlFactor] at hkey'
      split_ifs at hkey' with hd
      · rw [Function.update_apply] at hkey'
        split_ifs at hkey' with heq
        · exact Option.some.inj hkey' ▸ hd.2.2
        · exact h key' factor' hkey'
      · exact h key' factor' hkey'

/-- Factors are positive. -/
theorem getTtlFactor_pos (tree : List FactorDefinition) (service inst : UInt16) :
    0 < getTtlFactor service inst (loadTtlFactors tree) := by
  rw [getTtlFactor]
  cases hfound : loadTtlFactors tree (service, inst) with
  | none => decide
  | some factor =>
      refine pos_of_foldl_loadTtlFactor tree (fun key factor h => ?_) hfound
      cases h

/-! ### The way of the TTL -/

namespace Entry

variable (ttlFactorSubscriptions : TtlMap) (e : Entry)

/-- The TTL of the subscription that an entry asks for.
Source: `service_discovery_impl::handle_eventgroup_subscription`, `set_ttl` -/
def subscriptionTtl : UInt32 := e.ttl * getTtlFactor e.service e.inst ttlFactorSubscriptions

/-- The positive acknowledgement of an entry, with runs for its options.
Source: `service_discovery_impl::send_subscription_ack` and `insert_subscription_ack` -/
def ack (run1 run2 : List ℕ) : Option Entry :=
  if 0 < e.subscriptionTtl ttlFactorSubscriptions then
    some { e with
      type := .subscribeEventgroupAck
      ttl := e.subscriptionTtl ttlFactorSubscriptions
      detail := e.detail.cleared
      run1 := run1
      run2 := run2 }
  else none

/-- When the subscription expires, in seconds.
Source: `routing_manager_impl::on_remote_subscribe`, `its_expiration` -/
def expiration (now : ℕ) : ℕ := now + (e.subscriptionTtl ttlFactorSubscriptions).toNat

/-- Source: `service_discovery_impl::update_subscription_expiration_timer`, the body of the loop -/
def updateExpiration (now nextSubscriptionExpiration : ℕ) : ℕ :=
  if e.type = .subscribeEventgroupAck ∧ e.ttl ≠ 0 then
    let itsExpiration :=
      now + (e.ttl * getTtlFactor e.service e.inst ttlFactorSubscriptions).toNat
    if itsExpiration < nextSubscriptionExpiration then itsExpiration
    else nextSubscriptionExpiration
  else nextSubscriptionExpiration

/-- The TTL that an entry has on the wire. -/
def wireTtl : ℕ := ofBytes ((e.serialize.drop 9).take 3)

end Entry

/-- When the expiration timer is to expire.
Source: `service_discovery_impl::update_subscription_expiration_timer` -/
def updateSubscriptionExpirationTimer (ttlFactorSubscriptions : TtlMap)
    (now nextSubscriptionExpiration : ℕ) (messages : List (List Entry)) : ℕ :=
  messages.flatten.foldl (fun next e => e.updateExpiration ttlFactorSubscriptions now next)
    nextSubscriptionExpiration

/-- The acknowledgement of an entry carries its TTL, and the subscription and the timer expire
after the TTL times the factor. -/
structure TtlKept (ttlFactorSubscriptions : TtlMap) (e : Entry) : Prop where
  wire : ∀ run1 run2 a, e.ack ttlFactorSubscriptions run1 run2 = some a → a.wireTtl = e.ttl.toNat
  expiration : ∀ now, e.expiration ttlFactorSubscriptions now =
    now + e.ttl.toNat * (getTtlFactor e.service e.inst ttlFactorSubscriptions).toNat
  timer : ∀ run1 run2 a now next, e.ack ttlFactorSubscriptions run1 run2 = some a →
    updateSubscriptionExpirationTimer ttlFactorSubscriptions now next [[a]] =
      min next (now +
        e.ttl.toNat * (getTtlFactor e.service e.inst ttlFactorSubscriptions).toNat)

/-! ### When the TTL is kept -/

theorem wireTtl_eq (e : Entry) : e.wireTtl = e.ttl.toNat % 2 ^ 24 := by
  have hbytes : (e.serialize.drop 9).take 3 = toBytes 3 e.ttl.toNat := rfl
  rw [Entry.wireTtl, hbytes, ofBytes_toBytes]
  rfl

/-- The only factor for which the product has the TTL in its last 24 bits, and its own product with
the factor in 32 bits. -/
theorem factor_eq_one {t f : ℕ} (ht : 0 < t) (hlt : t < 2 ^ 24) (hf : 0 < f)
    (hproduct : t * f < 2 ^ 32) (hwire : t * f % 2 ^ 24 = t)
    (htimer : t * f * f % 2 ^ 32 = t * f) : f = 1 := by
  obtain ⟨g, rfl⟩ := Nat.exists_eq_add_of_lt hf
  rw [zero_add] at *
  -- `g` is one less than the factor; both congruences say that a product with `g` is zero.
  obtain ⟨m, hm⟩ : 2 ^ 24 ∣ t * g := by
    have h : t ≡ t * (g + 1) [MOD 2 ^ 24] := by
      rw [Nat.ModEq, hwire, Nat.mod_eq_of_lt hlt]
    have hdvd := (Nat.modEq_iff_dvd' (Nat.le_mul_of_pos_right t hf)).mp h
    rwa [mul_add, mul_one, Nat.add_sub_cancel] at hdvd
  have hdvd : 2 ^ 32 ∣ t * (g + 1) * g := by
    have h : t * (g + 1) ≡ t * (g + 1) * (g + 1) [MOD 2 ^ 32] := by
      rw [Nat.ModEq, htimer, Nat.mod_eq_of_lt hproduct]
    have hdvd := (Nat.modEq_iff_dvd' (Nat.le_mul_of_pos_right _ hf)).mp h
    rwa [mul_add (t * (g + 1)), mul_one, Nat.add_sub_cancel] at hdvd
  have hdvd' : 2 ^ 8 ∣ (g + 1) * m := by
    have heq : t * (g + 1) * g = 2 ^ 24 * ((g + 1) * m) := by
      calc t * (g + 1) * g = t * g * (g + 1) := by ring
        _ = 2 ^ 24 * ((g + 1) * m) := by rw [hm]; ring
    rw [heq, show (2 : ℕ) ^ 32 = 2 ^ 24 * 2 ^ 8 from rfl] at hdvd
    exact Nat.dvd_of_mul_dvd_mul_left (by decide) hdvd
  have hmlt : m < 2 ^ 8 := by
    rw [mul_add, hm] at hproduct
    omega
  rcases Nat.even_or_odd g with heven | hodd
  · -- An odd factor: `m` is a multiple of 256, hence zero.
    have hcoprime : Nat.Coprime (2 ^ 8) (g + 1) :=
      Nat.Coprime.pow_left 8 (Nat.coprime_two_left.mpr heven.add_one)
    have hzero := Nat.eq_zero_of_dvd_of_lt (hcoprime.dvd_of_dvd_mul_left hdvd') hmlt
    rw [hzero, mul_zero] at hm
    rcases Nat.mul_eq_zero.mp hm with h | h
    · exact absurd h ht.ne'
    · rw [h]
  · -- An even factor: the TTL is a multiple of what it is less than.
    have hcoprime : Nat.Coprime (2 ^ 24) g := Nat.Coprime.pow_left 24 (Nat.coprime_two_left.mpr hodd)
    have hdvdt : 2 ^ 24 ∣ t := hcoprime.dvd_of_dvd_mul_right ⟨m, hm⟩
    exact absurd (Nat.eq_zero_of_dvd_of_lt hdvdt hlt) ht.ne'

variable {ttlFactorSubscriptions : TtlMap} {e : Entry}

theorem ack_of_pos (h : 0 < e.subscriptionTtl ttlFactorSubscriptions) (run1 run2 : List ℕ) :
    e.ack ttlFactorSubscriptions run1 run2 = some { e with
      type := .subscribeEventgroupAck
      ttl := e.subscriptionTtl ttlFactorSubscriptions
      detail := e.detail.cleared
      run1 := run1
      run2 := run2 } := if_pos h

theorem toNat_subscriptionTtl : (e.subscriptionTtl ttlFactorSubscriptions).toNat =
    e.ttl.toNat * (getTtlFactor e.service e.inst ttlFactorSubscriptions).toNat % 2 ^ 32 :=
  UInt32.toNat_mul _ _

/-- What the acknowledgement does to the timer: the factor is applied again. -/
theorem updateSubscriptionExpirationTimer_ack {run1 run2 : List ℕ} {a : Entry}
    (h : e.ack ttlFactorSubscriptions run1 run2 = some a) (now next : ℕ) :
    updateSubscriptionExpirationTimer ttlFactorSubscriptions now next [[a]] =
      min next (now + (e.subscriptionTtl ttlFactorSubscriptions).toNat *
        (getTtlFactor e.service e.inst ttlFactorSubscriptions).toNat % 2 ^ 32) := by
  rw [Entry.ack] at h
  split_ifs at h with hpos
  obtain rfl := Option.some.inj h
  have hne : e.subscriptionTtl ttlFactorSubscriptions ≠ 0 := fun h => by
    rw [h] at hpos
    exact absurd hpos (by decide)
  simp only [updateSubscriptionExpirationTimer, List.flatten_cons, List.flatten_nil,
    List.append_nil, List.foldl_cons, List.foldl_nil, Entry.updateExpiration, ne_eq, hne,
    not_false_eq_true, and_self, if_true, UInt32.toNat_mul]
  split_ifs <;> omega

/-- **The TTL is kept iff the factor is one.** -/
theorem ttl_kept_iff (tree : List FactorDefinition) (e : Entry) (hpos : 0 < e.ttl.toNat)
    (hlt : e.ttl.toNat < 2 ^ 24) :
    TtlKept (loadTtlFactors tree) e ↔ getTtlFactor e.service e.inst (loadTtlFactors tree) = 1 := by
  have hfactor : 0 < (getTtlFactor e.service e.inst (loadTtlFactors tree)).toNat :=
    UInt32.lt_iff_toNat_lt.mp (getTtlFactor_pos tree e.service e.inst)
  have hsubscription := @toNat_subscriptionTtl (loadTtlFactors tree) e
  constructor
  · intro h
    have hexpiration := h.expiration 0
    rw [Entry.expiration, zero_add, zero_add] at hexpiration
    -- The product is positive and has not wrapped, so that the entry is acknowledged.
    have hacked : 0 < e.subscriptionTtl (loadTtlFactors tree) := by
      refine UInt32.lt_iff_toNat_lt.mpr ?_
      rw [hexpiration]
      exact Nat.mul_pos hpos hfactor
    have hack := ack_of_pos hacked [] []
    have hwire := h.wire [] [] _ hack
    rw [wireTtl_eq] at hwire
    have htimer := h.timer [] [] _ 0 (2 ^ 64) hack
    rw [updateSubscriptionExpirationTimer_ack hack, hexpiration] at htimer
    have hproduct : e.ttl.toNat * (getTtlFactor e.service e.inst (loadTtlFactors tree)).toNat <
        2 ^ 32 := by
      rw [← hexpiration]
      exact UInt32.toNat_lt _
    refine UInt32.toNat_inj.mp (factor_eq_one hpos hlt hfactor hproduct ?_ ?_)
    · rw [← hexpiration]
      exact hwire
    · omega
  · intro hone
    rw [hone, UInt32.toNat_one, mul_one, Nat.mod_eq_of_lt (hlt.trans (by decide))] at hsubscription
    refine ⟨fun run1 run2 a ha => ?_, fun now => ?_, fun run1 run2 a now next ha => ?_⟩
    · rw [wireTtl_eq]
      rw [Entry.ack] at ha
      split_ifs at ha
      obtain rfl := Option.some.inj ha
      rw [hsubscription, Nat.mod_eq_of_lt hlt]
    · rw [Entry.expiration, hsubscription, hone, UInt32.toNat_one, mul_one]
    · rw [updateSubscriptionExpirationTimer_ack ha, hsubscription, hone, UInt32.toNat_one, mul_one,
        Nat.mod_eq_of_lt (hlt.trans (by decide))]

/-- A subscription to an eventgroup. -/
def subscribeWith (ttl : UInt32) : Entry :=
  ⟨.subscribeEventgroup, 0x1111, 1, 1, ttl, .eventgroup 0 0x20, [0], []⟩

theorem ttl_kept_iff_default : TtlKept (loadTtlFactors []) (subscribeWith 3) :=
  (ttl_kept_iff [] (subscribeWith 3) (by decide) (by decide)).mpr rfl

/-- **An acknowledgement becomes a negative one**: twice the TTL has zeros in its last 24 bits. -/
theorem acknowledged_with_zero :
    ((subscribeWith 0x800000).ack (loadTtlFactors [⟨0x1111, 1, 2⟩]) [] []).map Entry.wireTtl =
      some 0 ∧ ¬ TtlKept (loadTtlFactors [⟨0x1111, 1, 2⟩]) (subscribeWith 0x800000) := by
  refine ⟨by decide +kernel, fun h => ?_⟩
  have hwire := h.wire [] [] _ rfl
  exact absurd hwire (by decide +kernel)

end SomeipTunnel.Sd
