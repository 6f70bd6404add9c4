import SomeipTunnel.Lib.Run
import SomeipTunnel.Lib.Table

/-!
# The time to live of remote services

An offer of another host puts a service into `services_` and `services_remote_` with a time to live
in seconds, or sets that of the entry that is there. `update_routing_info` is called with the time
since its last call, takes this time off the milliseconds that each remote service has left, and
removes the services whose time is over.

`World` has, beside the tables, the time to live of the latest offer of each service and the time
of the ticks since then. `ttl_exact`: along every run a tick removes exactly the remote services with
a time to live below `DEFAULT_TTL` for which this time, together with its own, exceeds it; offers add
their service and keep all others, and nothing else adds or removes one.

Source: vsomeip/implementation/routing/src/routing_manager_impl.cpp, routing_manager_base.cpp,
serviceinfo.cpp
-/

namespace SomeipTunnel.Routing.Remote

open StepRun Table List AList

/-- A service and an instance. -/
abbrev ServiceKey := UInt16 × UInt16

/-- Source: `DEFAULT_TTL`, "until next reboot" -/
def defaultTtl : ℕ := 0xFFFFFF

/-- Source: `serviceinfo`; the time to live is in milliseconds -/
structure ServiceInfo where
  isLocal : Bool
  ttl : ℕ
  reliable : Bool
  unreliable : Bool

namespace ServiceInfo

variable (info : ServiceInfo)

/-- Source: `serviceinfo::get_ttl` -/
def getTtl : ℕ := info.ttl / 1000 % 2 ^ 32

/-- Source: `serviceinfo::set_ttl` -/
def setTtl (ttl : UInt32) : ServiceInfo := { info with ttl := 1000 * ttl.toNat }

/-- Source: `serviceinfo::get_endpoint`, whether there is one -/
def getEndpoint (isReliable : Bool) : Bool := if isReliable then info.reliable else info.unreliable

/-- Source: `serviceinfo::set_endpoint` -/
def setEndpoint (isPresent isReliable : Bool) : ServiceInfo :=
  if isReliable then { info with reliable := isPresent } else { info with unreliable := isPresent }

/-- Source: `routing_manager_impl::update_routing_info`, whether an offer is expired -/
def isExpired (elapsed : ℕ) : Bool :=
  info.getTtl < defaultTtl && (info.ttl < elapsed || info.ttl = 0)

/-- Source: `routing_manager_impl::update_routing_info`, one service -/
def elapse (elapsed : ℕ) : ServiceInfo :=
  if info.getTtl < defaultTtl then
    if info.ttl < elapsed || info.ttl = 0 then info.setTtl 0
    else { info with ttl := info.ttl - elapsed }
  else info

/-- A tick leaves a service of this host or of another one what it is. -/
theorem isLocal_elapse (elapsed : ℕ) : (info.elapse elapsed).isLocal = info.isLocal := by
  unfold elapse
  split_ifs <;> rfl

end ServiceInfo

/-- The tables. The entries of `services_remote_` are those of `services_`, by shared pointers. -/
structure Services where
  /-- Source: `services_` -/
  services : AList fun _ : ServiceKey => ServiceInfo
  /-- Source: the keys of `services_remote_` -/
  remote : List ServiceKey

/-- An offer of another host. `isLocal` says that it names the address of this host. -/
structure RemoteOffer where
  key : ServiceKey
  ttl : UInt32
  isLocal : Bool
  isSuspended : Bool

namespace Services

variable (s : Services)

/-- Source: `routing_manager_base::create_service_info` -/
def createServiceInfo (key : ServiceKey) (ttl : UInt32) (isLocal : Bool) : Services where
  services := s.services.insert key ⟨isLocal, 1000 * ttl.toNat, false, false⟩
  remote := if isLocal then s.remote else s.remote.insert key

/-- Source: `routing_manager_impl::add_routing_info`, the part on the tables -/
def addRoutingInfo (o : RemoteOffer) : Services :=
  if o.isSuspended then s
  else
    match s.services.lookup o.key with
    | none => s.createServiceInfo o.key o.ttl o.isLocal
    | some info =>
        if info.isLocal then s
        else { s with services := s.services.insert o.key (info.setTtl o.ttl) }

/-- Source: `routing_manager_base::clear_service_info` -/
def clearServiceInfo (key : ServiceKey) (isReliable : Bool) : Services :=
  match s.services.lookup key with
  | none => s
  | some info =>
      if !info.getEndpoint (!isReliable) then
        if (s.services.keys.filter fun k => k.1 = key.1).length ≤ 1 then
          { services := filterMapKeys (fun k i => if k.1 = key.1 then none else some i) s.services
            remote := if info.isLocal then s.remote else s.remote.filter fun k => k.1 ≠ key.1 }
        else
          { services := s.services.erase key
            remote := if info.isLocal then s.remote else s.remote.filter fun k => k ≠ key }
      else { s with services := s.services.insert key (info.setEndpoint false isReliable) }

/-- Source: `routing_manager_impl::del_routing_info` with both kinds of endpoints, the part on the
tables -/
def delRoutingInfo (key : ServiceKey) : Services :=
  (s.clearServiceInfo key true).clearServiceInfo key false

/-- Source: `routing_manager_impl::update_routing_info`, the loop over the remote services -/
def elapseAll (elapsed : ℕ) : Services :=
  { s with
    services := filterMapKeys
      (fun key info => some (if key ∈ s.remote then info.elapse elapsed else info)) s.services }

/-- Source: `routing_manager_impl::update_routing_info`, `its_expired_offers` -/
def expiredOffers (elapsed : ℕ) : List ServiceKey :=
  s.remote.filter fun key => (s.services.lookup key).any fun info => info.isExpired elapsed

/-- Source: `routing_manager_impl::update_routing_info` -/
def updateRoutingInfo (elapsed : ℕ) : Services :=
  (s.expiredOffers elapsed).foldl delRoutingInfo (s.elapseAll elapsed)

end Services

/-! ### Runs -/

/-- What happens to the tables: an offer, a tick, or an endpoint of a service comes or goes. -/
inductive TtlEvent where
  | offer (o : RemoteOffer)
  | tick (elapsed : ℕ+)
  | endpoint (key : ServiceKey) (isPresent isReliable : Bool)

/-- The tables beside the time to live of the latest offer of each service and the time of the ticks
since then. -/
structure World where
  tables : Services
  latest : ServiceKey → UInt32 × ℕ

namespace World

variable (w : World)

/-- An offer counts unless the host is suspended or offers the service itself. -/
def Counts (o : RemoteOffer) : Prop :=
  o.isSuspended = false ∧ (w.tables.services.lookup o.key).all (fun info => !info.isLocal) = true

instance (o : RemoteOffer) : Decidable (w.Counts o) := inferInstanceAs (Decidable (_ ∧ _))

def after : TtlEvent → World
  | .offer o =>
      { tables := w.tables.addRoutingInfo o
        latest := if w.Counts o then Function.update w.latest o.key (o.ttl, 0) else w.latest }
  | .tick elapsed =>
      { tables := w.tables.updateRoutingInfo elapsed
        latest := fun key => ((w.latest key).1, (w.latest key).2 + elapsed) }
  | .endpoint key isPresent isReliable =>
      { w with
        tables := { w.tables with
          services := filterMapKeys
            (fun k i => some (if k = key then i.setEndpoint isPresent isReliable else i))
            w.tables.services } }

def step (w : World) (e : TtlEvent) : Except Empty (Unit × World) := .ok ((), w.after e)

def start : World := ⟨⟨∅, []⟩, fun _ => (0, 0)⟩

/-- The time to live of the latest offer is over behind a tick: the time since then exceeds it. -/
def Over (key : ServiceKey) (elapsed : ℕ) : Prop :=
  (w.latest key).1.toNat < defaultTtl ∧
    1000 * (w.latest key).1.toNat < (w.latest key).2 + elapsed

/-- **What an event does to the keys of the tables.** An offer that counts adds its key to
`services_`, and to `services_remote_` unless it is local; a tick removes the remote services whose
time is over, from both tables; and nothing else is added or removed. Remote services are in both
tables. -/
def Exact (e : TtlEvent) : Prop :=
  let s := w.tables
  let s' := (w.after e).tables
  (∀ key ∈ s'.remote, key ∈ s'.services) ∧
    match e with
    | .offer o => ∀ key,
        (key ∈ s'.services ↔ key ∈ s.services ∨ key = o.key ∧ w.Counts o) ∧
        (key ∈ s'.remote ↔ key ∈ s.remote ∨ key = o.key ∧ w.Counts o ∧ o.isLocal = false)
    | .tick elapsed => ∀ key,
        (key ∈ s'.services ↔ key ∈ s.services ∧ ¬ (key ∈ s.remote ∧ w.Over key elapsed)) ∧
        (key ∈ s'.remote ↔ key ∈ s.remote ∧ ¬ w.Over key elapsed)
    | .endpoint _ _ _ => ∀ key,
        (key ∈ s'.services ↔ key ∈ s.services) ∧ (key ∈ s'.remote ↔ key ∈ s.remote)

end World

/-! ### Removal -/

namespace Services

variable {s s' : Services} {key k : ServiceKey}

/-- A remote service is in both tables and not local. -/
def Shared (s : Services) : Prop :=
  ∀ key ∈ s.remote, ∃ info, s.services.lookup key = some info ∧ info.isLocal = false

/-- The entries with `P` are gone and everything else is there. -/
structure Without (s s' : Services) (P : ServiceKey → Prop) : Prop where
  gone : ∀ k, P k → s'.services.lookup k = none
  kept : ∀ k, ¬ P k → s'.services.lookup k = s.services.lookup k
  remote : ∀ k, k ∈ s'.remote ↔ k ∈ s.remote ∧ ¬ P k

/-- Remote services are in both tables. -/
theorem Shared.mem_services (h : s.Shared) (hk : k ∈ s.remote) : k ∈ s.services := by
  obtain ⟨info, hinfo, -⟩ := h k hk
  rw [← lookup_isSome, hinfo]
  rfl

/-- Where a service has at most one instance, erasing the service is erasing the instance. -/
theorem eq_of_length_le_one (h : (s.services.keys.filter fun k => k.1 = key.1).length ≤ 1)
    (hkey : key ∈ s.services) (hk : k ∈ s.services) (hs : k.1 = key.1) : k = key := by
  have hin : k ∈ s.services.keys.filter fun k => k.1 = key.1 :=
    mem_filter.mpr ⟨mem_keys.mp hk, by simpa using hs⟩
  have hin' : key ∈ s.services.keys.filter fun k => k.1 = key.1 :=
    mem_filter.mpr ⟨mem_keys.mp hkey, by simp⟩
  rcases hlist : s.services.keys.filter fun k => k.1 = key.1 with _ | ⟨x, _ | ⟨y, ys⟩⟩
  · rw [hlist] at hin
    cases hin
  · rw [hlist, mem_singleton] at hin hin'
    rw [hin, hin']
  · simp [hlist] at h

/-- Without an endpoint of the other kind the entry is erased. -/
theorem clearServiceInfo_erases (h : s.Shared) {info : ServiceInfo}
    (hinfo : s.services.lookup key = some info) (hremote : info.isLocal = false) {isReliable : Bool}
    (hend : info.getEndpoint (!isReliable) = false) :
    s.Without (s.clearServiceInfo key isReliable) (· = key) := by
  have hkey : key ∈ s.services := lookup_isSome.mp (by rw [hinfo]; rfl)
  simp only [clearServiceInfo, hinfo, hend, Bool.not_false, if_true, hremote, Bool.false_eq_true,
    if_false]
  split_ifs with hone
  · refine ⟨?_, fun k hk => ?_, fun k => ?_⟩
    · rintro k rfl
      rw [lookup_filterMapKeys, hinfo]
      simp
    · rw [lookup_filterMapKeys]
      rcases hlookup : s.services.lookup k with _ | info'
      · rfl
      · have hin : k ∈ s.services := lookup_isSome.mp (by rw [hlookup]; rfl)
        have hs : k.1 ≠ key.1 := fun hs => hk (eq_of_length_le_one hone hkey hin hs)
        simp [hs]
    · rw [mem_filter, decide_eq_true_iff]
      refine and_congr_right fun hk => not_congr ⟨fun hs => ?_, fun heq => heq ▸ rfl⟩
      exact eq_of_length_le_one hone hkey (h.mem_services hk) hs
  · exact ⟨fun k hk => by rw [hk, lookup_erase], fun k hk => lookup_erase_ne hk,
      fun k => by simp⟩

/-- The two passes erase the entry, whichever endpoints it has. -/
theorem delRoutingInfo_erases (h : s.Shared)
    (hkey : ∀ info, s.services.lookup key = some info → info.isLocal = false) :
    s.Without (s.delRoutingInfo key) (· = key) := by
  unfold delRoutingInfo
  rcases hinfo : s.services.lookup key with _ | info
  · have hsame : ∀ isReliable, s.clearServiceInfo key isReliable = s := by
      intro isReliable
      simp only [clearServiceInfo, hinfo]
    rw [hsame, hsame]
    refine ⟨fun k hk => by rw [hk, hinfo], fun _ _ => rfl, fun k => ?_⟩
    refine (and_iff_left_of_imp ?_).symm
    rintro hk rfl
    obtain ⟨info, hsome, -⟩ := h k hk
    rw [hinfo] at hsome
    cases hsome
  · have hremote := hkey info hinfo
    cases hend : info.getEndpoint (!true)
    · have hfirst := clearServiceInfo_erases h hinfo hremote hend
      have hsame : (s.clearServiceInfo key true).clearServiceInfo key false =
          s.clearServiceInfo key true := by
        rw [clearServiceInfo, hfirst.gone key rfl]
      rw [hsame]
      exact hfirst
    · -- the first pass takes the reliable endpoint, so that the second one erases the entry
      have hfirst : s.clearServiceInfo key true =
          { s with services := s.services.insert key (info.setEndpoint false true) } := by
        simp only [clearServiceInfo, hinfo]
        rw [hend]
        rfl
      rw [hfirst]
      have hshared : Shared
          { s with services := s.services.insert key (info.setEndpoint false true) } := by
        intro k hk
        by_cases heq : k = key
        · exact ⟨_, by rw [heq, lookup_insert], by simp [ServiceInfo.setEndpoint, hremote]⟩
        · obtain ⟨info', hinfo', hremote'⟩ := h k hk
          exact ⟨info', by rw [lookup_insert_ne heq, hinfo'], hremote'⟩
      have hsecond := clearServiceInfo_erases hshared (lookup_insert _)
        (by simp [ServiceInfo.setEndpoint, hremote])
        (show (info.setEndpoint false true).getEndpoint (!false) = false from rfl)
      exact ⟨hsecond.gone, fun k hk => (hsecond.kept k hk).trans (lookup_insert_ne hk),
        hsecond.remote⟩

theorem Without.shared {P : ServiceKey → Prop} (h : s.Without s' P) (hs : s.Shared) :
    s'.Shared := by
  intro k hk
  obtain ⟨hin, hnot⟩ := (h.remote k).mp hk
  obtain ⟨info, hinfo, hremote⟩ := hs k hin
  exact ⟨info, by rw [h.kept k hnot, hinfo], hremote⟩

/-- The services of a list are removed from both tables. Source: `del_routing_info` -/
theorem foldl_delRoutingInfo (ks : List ServiceKey) (hs : s.Shared)
    (hks : ∀ k ∈ ks, ∀ info, s.services.lookup k = some info → info.isLocal = false) :
    s.Without (ks.foldl delRoutingInfo s) (· ∈ ks) := by
  induction ks generalizing s with
  | nil => exact ⟨by simp, by simp, by simp⟩
  | cons key ks ih =>
      have hhead := delRoutingInfo_erases hs (hks key mem_cons_self)
      have htail := ih (hhead.shared hs) fun k hk info hinfo => by
        by_cases heq : k = key
        · rw [hhead.gone k heq] at hinfo
          cases hinfo
        · rw [hhead.kept k heq] at hinfo
          exact hks k (mem_cons_of_mem _ hk) info hinfo
      refine ⟨fun k hk => ?_, fun k hk => ?_, fun k => ?_⟩
      · by_cases hin : k ∈ ks
        · exact htail.gone k hin
        · rw [foldl_cons, htail.kept k hin]
          exact hhead.gone k ((mem_cons.mp hk).resolve_right hin)
      · obtain ⟨hne, hnot⟩ := not_or.mp (mt mem_cons.mpr hk)
        rw [foldl_cons, htail.kept k hnot, hhead.kept k hne]
      · rw [foldl_cons, htail.remote, hhead.remote, mem_cons, not_or, and_assoc]

/-! ### A tick -/

/-- A tick runs down the remote services only. -/
theorem lookup_elapseAll (elapsed : ℕ) : (s.elapseAll elapsed).services.lookup k =
    (s.services.lookup k).map fun info => if k ∈ s.remote then info.elapse elapsed else info := by
  rw [elapseAll, lookup_filterMapKeys]
  rcases s.services.lookup k with _ | info
  · rfl
  · rfl

theorem Shared.elapseAll (h : s.Shared) (elapsed : ℕ) : (s.elapseAll elapsed).Shared := by
  intro k hk
  obtain ⟨info, hinfo, hremote⟩ := h k hk
  refine ⟨info.elapse elapsed, ?_, ?_⟩
  · rw [lookup_elapseAll, hinfo, Option.map_some, if_pos (show k ∈ s.remote from hk)]
  · rw [ServiceInfo.isLocal_elapse, hremote]

/-- What a tick leaves. -/
theorem updateRoutingInfo_without (h : s.Shared) (elapsed : ℕ) :
    (s.elapseAll elapsed).Without (s.updateRoutingInfo elapsed) (· ∈ s.expiredOffers elapsed) := by
  refine foldl_delRoutingInfo _ (h.elapseAll elapsed) fun k hk info hinfo => ?_
  obtain ⟨info', hinfo', hremote⟩ := h.elapseAll elapsed k (mem_filter.mp hk).1
  rw [hinfo] at hinfo'
  cases hinfo'
  exact hremote

end Services

/-! ### The time that is left -/

/-- What a remote service has left is the time to live of the latest offer without the time since
then, which it does not exceed; "until next reboot" is not touched. -/
def TimeLeft (latest : UInt32 × ℕ) (info : ServiceInfo) : Prop :=
  (latest.1.toNat < defaultTtl → info.ttl + latest.2 = 1000 * latest.1.toNat) ∧
    (defaultTtl ≤ latest.1.toNat → info.ttl = 1000 * latest.1.toNat)

section left

variable {latest : UInt32 × ℕ} {info : ServiceInfo}

theorem TimeLeft.getTtl_lt (h : TimeLeft latest info) :
    info.getTtl < defaultTtl ↔ latest.1.toNat < defaultTtl := by
  have hlt := latest.1.toNat_lt
  unfold ServiceInfo.getTtl
  obtain ⟨hbelow, hforever⟩ := h
  rcases Nat.lt_or_ge latest.1.toNat 0xFFFFFF with ht | ht
  · have := hbelow ht
    omega
  · have := hforever ht
    omega

/-- A service expires at the tick that takes the time since its offer over its time to live. -/
theorem TimeLeft.isExpired_iff (h : TimeLeft latest info) (elapsed : ℕ+) :
    info.isExpired elapsed = true ↔
      latest.1.toNat < defaultTtl ∧ 1000 * latest.1.toNat < latest.2 + elapsed := by
  have hpos := elapsed.pos
  simp only [ServiceInfo.isExpired, Bool.and_eq_true, Bool.or_eq_true, decide_eq_true_eq,
    h.getTtl_lt]
  refine and_congr_right fun ht => ?_
  have := h.1 ht
  omega

/-- The time left and the time since the offer make the time to live. -/
theorem TimeLeft.elapse (h : TimeLeft latest info) {elapsed : ℕ}
    (hnot : info.isExpired elapsed = false) :
    TimeLeft (latest.1, latest.2 + elapsed) (info.elapse elapsed) := by
  unfold ServiceInfo.elapse
  simp only [ServiceInfo.isExpired, Bool.and_eq_false_iff, decide_eq_false_iff_not] at hnot
  split_ifs with hlt hover
  · exact absurd hover (by simpa using hnot.resolve_left (not_not.mpr hlt))
  · have ht := h.getTtl_lt.mp hlt
    have hleft := h.1 ht
    refine ⟨fun _ => ?_, fun hge => absurd ht (not_lt.mpr hge)⟩
    simp only [Bool.or_eq_true, decide_eq_true_eq, not_or, not_lt] at hover
    dsimp only
    omega
  · have ht : ¬ latest.1.toNat < defaultTtl := fun hlt' => hlt (h.getTtl_lt.mpr hlt')
    exact ⟨fun hlt' => absurd hlt' ht, h.2⟩

end left

namespace World

variable {w : World}

/-- The invariant of the runs. -/
structure Good (w : World) : Prop where
  shared : w.tables.Shared
  listed : ∀ key info, w.tables.services.lookup key = some info → info.isLocal = false →
    key ∈ w.tables.remote
  left : ∀ key ∈ w.tables.remote, ∀ info, w.tables.services.lookup key = some info →
    TimeLeft (w.latest key) info

/-- What expires is what is over. Source: `update_routing_info` -/
theorem Good.mem_expiredOffers (h : w.Good) {key : ServiceKey} (hkey : key ∈ w.tables.remote)
    (elapsed : ℕ+) : key ∈ w.tables.expiredOffers elapsed ↔ w.Over key elapsed := by
  obtain ⟨info, hinfo, -⟩ := h.shared key hkey
  rw [Services.expiredOffers, mem_filter, and_iff_right hkey, hinfo, Option.any_some]
  exact (h.left key hkey info hinfo).isExpired_iff elapsed

/-- A tick. -/
theorem Good.tick (h : w.Good) (elapsed : ℕ+) : (w.after (.tick elapsed)).Good := by
  have hwithout := Services.updateRoutingInfo_without h.shared elapsed
  -- what is left are the services from before that are not expired
  have hold : ∀ key info, (w.tables.updateRoutingInfo elapsed).services.lookup key = some info →
      key ∉ w.tables.expiredOffers elapsed ∧ ∃ old, w.tables.services.lookup key = some old ∧
        info = if key ∈ w.tables.remote then old.elapse elapsed else old := by
    intro key info hinfo
    have hnot : key ∉ w.tables.expiredOffers elapsed := by
      intro hexp
      rw [hwithout.gone key hexp] at hinfo
      cases hinfo
    rw [hwithout.kept key hnot, Services.lookup_elapseAll] at hinfo
    obtain ⟨old, hlookup, heq⟩ := Option.map_eq_some_iff.mp hinfo
    exact ⟨hnot, old, hlookup, heq.symm⟩
  refine ⟨hwithout.shared (h.shared.elapseAll elapsed), fun key info hinfo hremote => ?_,
    fun key hkey info hinfo => ?_⟩
  · obtain ⟨hnot, old, hlookup, rfl⟩ := hold key info hinfo
    refine (hwithout.remote key).mpr ⟨h.listed key old hlookup ?_, hnot⟩
    split_ifs at hremote
    · rw [← ServiceInfo.isLocal_elapse]
      exact hremote
    · exact hremote
  · have hin : key ∈ w.tables.remote := ((hwithout.remote key).mp hkey).1
    obtain ⟨hnot, old, hlookup, rfl⟩ := hold key info hinfo
    rw [if_pos hin]
    refine (h.left key hin old hlookup).elapse ?_
    rw [Services.expiredOffers, mem_filter, hlookup] at hnot
    simpa [hin] using hnot

/-- An offer that does not count changes nothing. -/
theorem addRoutingInfo_of_not_counts {o : RemoteOffer} (h : ¬ w.Counts o) :
    w.tables.addRoutingInfo o = w.tables := by
  unfold Services.addRoutingInfo
  split_ifs with hsuspended
  · rfl
  · have hnot : ¬ (w.tables.services.lookup o.key).all (fun info => !info.isLocal) = true :=
      fun hall => h ⟨Bool.eq_false_iff.mpr hsuspended, hall⟩
    rcases hlookup : w.tables.services.lookup o.key with _ | info
    · simp [hlookup] at hnot
    · simp only [hlookup, Option.all_some, Bool.not_eq_true, Bool.not_eq_false'] at hnot
      exact if_pos hnot

/-- Setting the time to live of one service keeps the invariant. -/
theorem Good.set (h : w.Good) {tables : Services} {key : ServiceKey} {ttl : UInt32}
    {info : ServiceInfo} (hlookup : tables.services = w.tables.services.insert key info)
    (hothers : ∀ k ≠ key, k ∈ tables.remote ↔ k ∈ w.tables.remote)
    (hlocal : key ∈ tables.remote ↔ info.isLocal = false) (httl : info.ttl = 1000 * ttl.toNat) :
    Good ⟨tables, Function.update w.latest key (ttl, 0)⟩ := by
  refine ⟨fun k hk => ?_, fun k info' hinfo' hremote => ?_, fun k hk info' hinfo' => ?_⟩
  · by_cases hkey : k = key
    · subst hkey
      exact ⟨info, by rw [hlookup, lookup_insert], hlocal.mp hk⟩
    · obtain ⟨old, hold, hremote⟩ := h.shared k ((hothers k hkey).mp hk)
      exact ⟨old, by rw [hlookup, lookup_insert_ne hkey, hold], hremote⟩
  · dsimp only at hinfo' ⊢
    by_cases hkey : k = key
    · subst hkey
      rw [hlookup, lookup_insert] at hinfo'
      obtain rfl := Option.some.inj hinfo'
      exact hlocal.mpr hremote
    · rw [hlookup, lookup_insert_ne hkey] at hinfo'
      exact (hothers k hkey).mpr (h.listed k info' hinfo' hremote)
  · dsimp only at hk hinfo' ⊢
    by_cases hkey : k = key
    · subst hkey
      rw [hlookup, lookup_insert] at hinfo'
      obtain rfl := Option.some.inj hinfo'
      rw [Function.update_self]
      exact ⟨fun _ => httl, fun _ => httl⟩
    · rw [hlookup, lookup_insert_ne hkey] at hinfo'
      rw [Function.update_of_ne hkey]
      exact h.left k ((hothers k hkey).mp hk) info' hinfo'

/-- What an offer of a new service does to the keys. -/
theorem mem_remote_createServiceInfo {s : Services} {key k : ServiceKey} {ttl : UInt32}
    {isLocal : Bool} : k ∈ (s.createServiceInfo key ttl isLocal).remote ↔
      k ∈ s.remote ∨ k = key ∧ isLocal = false := by
  cases isLocal
  · simp [Services.createServiceInfo, or_comm]
  · simp [Services.createServiceInfo]

/-- An offer. Source: `add_routing_info` -/
theorem Good.offer (h : w.Good) (o : RemoteOffer) : (w.after (.offer o)).Good := by
  by_cases hcounts : w.Counts o
  · simp only [after, if_pos hcounts]
    obtain ⟨hsuspended, hall⟩ := hcounts
    simp only [Services.addRoutingInfo, hsuspended, Bool.false_eq_true, if_false]
    rcases hlookup : w.tables.services.lookup o.key with _ | info
    · refine h.set rfl (fun k hk => ?_) ?_ rfl
      · simp [mem_remote_createServiceInfo, hk]
      · have hnew : o.key ∉ w.tables.remote := by
          intro hin
          obtain ⟨info, hinfo, -⟩ := h.shared o.key hin
          rw [hlookup] at hinfo
          cases hinfo
        simp [mem_remote_createServiceInfo, hnew]
    · have hremote : info.isLocal = false := by simpa [hlookup] using hall
      simp only [hremote, Bool.false_eq_true, if_false]
      exact h.set rfl (fun _ _ => Iff.rfl)
        (iff_of_true (h.listed o.key info hlookup hremote) hremote) rfl
  · simp only [after, if_neg hcounts, addRoutingInfo_of_not_counts hcounts]
    exact h

/-- **An offer adds its service and keeps the others.** -/
theorem Good.exact_offer (h : w.Good) (o : RemoteOffer) (key : ServiceKey) :
    (key ∈ (w.tables.addRoutingInfo o).services ↔
      key ∈ w.tables.services ∨ key = o.key ∧ w.Counts o) ∧
    (key ∈ (w.tables.addRoutingInfo o).remote ↔
      key ∈ w.tables.remote ∨ key = o.key ∧ w.Counts o ∧ o.isLocal = false) := by
  by_cases hcounts : w.Counts o
  · simp only [hcounts, and_true, true_and]
    obtain ⟨hsuspended, hall⟩ := hcounts
    simp only [Services.addRoutingInfo, hsuspended, Bool.false_eq_true, if_false]
    rcases hlookup : w.tables.services.lookup o.key with _ | info
    · refine ⟨?_, mem_remote_createServiceInfo⟩
      rw [Services.createServiceInfo, mem_insert, or_comm]
    · have hremote : info.isLocal = false := by simpa [hlookup] using hall
      simp only [hremote, Bool.false_eq_true, if_false]
      refine ⟨by rw [mem_insert, or_comm], (or_iff_left_of_imp ?_).symm⟩
      rintro ⟨rfl, -⟩
      exact h.listed o.key info hlookup hremote
  · simp [addRoutingInfo_of_not_counts hcounts, hcounts]

/-- **A tick removes what is over** and keeps the others. -/
theorem Good.exact_tick (h : w.Good) (elapsed : ℕ+) (key : ServiceKey) :
    (key ∈ (w.tables.updateRoutingInfo elapsed).services ↔
      key ∈ w.tables.services ∧ ¬ (key ∈ w.tables.remote ∧ w.Over key elapsed)) ∧
    (key ∈ (w.tables.updateRoutingInfo elapsed).remote ↔
      key ∈ w.tables.remote ∧ ¬ w.Over key elapsed) := by
  have hwithout := Services.updateRoutingInfo_without h.shared elapsed
  have hexp : key ∈ w.tables.expiredOffers elapsed ↔
      key ∈ w.tables.remote ∧ w.Over key elapsed := by
    constructor
    · intro hin
      have hkey := (mem_filter.mp hin).1
      exact ⟨hkey, (h.mem_expiredOffers hkey elapsed).mp hin⟩
    · exact fun ⟨hkey, hover⟩ => (h.mem_expiredOffers hkey elapsed).mpr hover
  constructor
  · rw [← hexp, ← lookup_isSome, ← lookup_isSome]
    by_cases hin : key ∈ w.tables.expiredOffers elapsed
    · simp [hwithout.gone key hin, hin]
    · simp [hwithout.kept key hin, Services.lookup_elapseAll, hin]
  · rw [hwithout.remote, hexp]
    exact and_congr_right fun hkey => by simp [show key ∈ w.tables.remote from hkey]

/-- The services behind a change of an endpoint. -/
theorem lookup_endpoint (key : ServiceKey) (isPresent isReliable : Bool) (k : ServiceKey) :
    (w.after (.endpoint key isPresent isReliable)).tables.services.lookup k =
      (w.tables.services.lookup k).map fun i =>
        if k = key then i.setEndpoint isPresent isReliable else i := by
  rw [after, lookup_filterMapKeys]
  rcases w.tables.services.lookup k with _ | i
  · rfl
  · rfl

/-- A change of an endpoint. -/
theorem Good.endpoint (h : w.Good) (key : ServiceKey) (isPresent isReliable : Bool) :
    (w.after (.endpoint key isPresent isReliable)).Good := by
  have hsame : ∀ (k : ServiceKey) (i : ServiceInfo),
      (if k = key then i.setEndpoint isPresent isReliable else i).ttl = i.ttl ∧
        (if k = key then i.setEndpoint isPresent isReliable else i).isLocal = i.isLocal := by
    intro k i
    unfold ServiceInfo.setEndpoint
    split_ifs <;> exact ⟨rfl, rfl⟩
  refine ⟨fun k hk => ?_, fun k info hinfo hremote => ?_, fun k hk info hinfo => ?_⟩
  · obtain ⟨old, hold, hremote⟩ := h.shared k hk
    exact ⟨_, by rw [lookup_endpoint, hold]; rfl, (hsame k old).2.trans hremote⟩
  · rw [lookup_endpoint] at hinfo
    obtain ⟨old, hold, rfl⟩ := Option.map_eq_some_iff.mp hinfo
    exact h.listed k old hold ((hsame k old).2.symm.trans hremote)
  · rw [lookup_endpoint] at hinfo
    obtain ⟨old, hold, rfl⟩ := Option.map_eq_some_iff.mp hinfo
    have hleft := h.left k hk old hold
    unfold TimeLeft at hleft ⊢
    rw [(hsame k old).1]
    exact hleft

/-- Every event keeps the invariant. -/
theorem Good.after (h : w.Good) : ∀ e : TtlEvent, (w.after e).Good
  | .offer o => h.offer o
  | .tick elapsed => h.tick elapsed
  | .endpoint key isPresent isReliable => h.endpoint key isPresent isReliable

/-- **Every event is exact** in a state with the invariant. -/
theorem Good.exact (h : w.Good) (e : TtlEvent) : w.Exact e := by
  refine ⟨fun key hkey => (h.after e).shared.mem_services hkey, ?_⟩
  cases e with
  | offer o => exact h.exact_offer o
  | tick elapsed => exact h.exact_tick elapsed
  | endpoint key isPresent isReliable =>
      refine fun k => ⟨?_, Iff.rfl⟩
      rw [← lookup_isSome, lookup_endpoint, Option.isSome_map, lookup_isSome]

end World

/-- Along every run of offers, ticks and changes of endpoints, a tick removes exactly the remote
services with a time to live below `DEFAULT_TTL` for which the time since the latest offer exceeds
it; an offer that counts adds its service, and nothing else adds or removes one. -/
theorem ttl_exact (events : List TtlEvent) : AllSteps World.step World.Exact World.start events := by
  refine AllSteps.of_forall World.Good (fun w e o w' h hstep => ?_) (fun w e h => h.exact e)
    ⟨fun _ hkey => (nomatch hkey), fun _ _ hlookup => (nomatch hlookup),
      fun _ hkey => (nomatch hkey)⟩
  cases hstep
  exact h.after e

/-- Two services, the first for a second and refreshed, the other one "until next reboot". -/
def refreshed : List TtlEvent :=
  [.offer ⟨(1, 1), 1, false, false⟩, .offer ⟨(2, 2), 0xFFFFFF, false, false⟩, .tick 600,
    .offer ⟨(1, 1), 1, false, false⟩, .tick 600]

/-- Behind 1.2 s the refreshed service is there; the next tick removes it and not the other one. -/
theorem ttl_exact_refreshed :
    AllSteps World.step World.Exact World.start (refreshed ++ [.tick 600]) ∧
      (refreshed.foldl World.after World.start).tables.remote = [(2, 2), (1, 1)] ∧
      ((refreshed ++ [TtlEvent.tick 600]).foldl World.after World.start).tables.remote = [(2, 2)] :=
  ⟨ttl_exact _, by decide +kernel, by decide +kernel⟩

end SomeipTunnel.Routing.Remote
