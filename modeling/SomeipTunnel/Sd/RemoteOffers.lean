import SomeipTunnel.Lib.Run
import SomeipTunnel.Lib.Table

/-!
# The two indices of remote offers

A service discovery keeps for each remote service instance the kind of its offer
(`remote_offer_types_`), and for each address, port and reliability the service instances offered
there (`remote_offers_by_ip_`). `Agree` says that the two list the same service instances, each
exactly where its latest offer puts it.

An update only adds to the second index, for an offer of both kinds it lists the reliable endpoint
under the unreliable address, and a removal takes an entry out of the first index even where it
leaves one in the second. `Call.Keeps` is the exact condition on a call and the state before it under
which the indices agree behind it (`agree_after_iff`), and so along every run
(`indices_agree_iff`).

Source: vsomeip/implementation/service_discovery/src/service_discovery_impl.cpp
-/

namespace SomeipTunnel.Sd

open List StepRun Table AList

/-! ### The indices -/

/-- Source: `reliability_type_e`. -/
inductive ReliabilityType
  | reliable
  | unreliable
  | both
  | unknown
deriving DecidableEq, Repr

/-- `ILLEGAL_PORT`. -/
def illegalPort : UInt16 := 0xFFFF

/-- `ANY_PORT`. -/
def anyPort : UInt16 := 0

/-- A service and an instance. -/
abbrev ServiceInstance := UInt16 × UInt16

/-- The addresses and ports of an offer or of a stop offer. -/
structure Endpoints (A : Type) where
  reliableAddress : A
  reliablePort : UInt16
  unreliableAddress : A
  unreliablePort : UInt16
deriving DecidableEq

/-- An address, a reliability and a port. -/
abbrev Place (A : Type) := A × (Bool × UInt16)

variable {A : Type} [DecidableEq A]

/-- The members `remote_offer_types_` and `remote_offers_by_ip_`. -/
structure RemoteOffers (A : Type) where
  types : AList fun _ : ServiceInstance => ReliabilityType
  byIp : Table₃ A (Bool × UInt16) ServiceInstance Unit

/-- `remote_offers_by_ip_[address][port].insert(..)`. -/
def insertAt (byIp : Table₃ A (Bool × UInt16) ServiceInstance Unit) (place : Place A)
    (si : ServiceInstance) : Table₃ A (Bool × UInt16) ServiceInstance Unit :=
  byIp.insert place.1 ((Table.inner byIp place.1).insert place.2
    ((Table.inner (Table.inner byIp place.1) place.2).insert si ()))

/-- Source: `service_discovery_impl::update_remote_offer_type`. The answer says whether the type of
a known offer has changed. -/
def RemoteOffers.updateRemoteOfferType (s : RemoteOffers A) (si : ServiceInstance)
    (offerType : ReliabilityType) (at_ : Endpoints A) : Bool × RemoteOffers A :=
  let changed :=
    match s.types.lookup si with
    | some found => decide (found ≠ offerType)
    | none => false
  let byIp :=
    match offerType with
    | .unreliable => insertAt s.byIp (at_.unreliableAddress, (false, at_.unreliablePort)) si
    | .reliable => insertAt s.byIp (at_.reliableAddress, (true, at_.reliablePort)) si
    | .both =>
        insertAt (insertAt s.byIp (at_.unreliableAddress, (false, at_.unreliablePort)) si)
          (at_.unreliableAddress, (true, at_.reliablePort)) si
    | .unknown => s.byIp
  (changed, ⟨s.types.insert si offerType, byIp⟩)

/-- The lambda `delete_from_remote_offers_by_ip`. -/
def deleteFrom (byIp : Table₃ A (Bool × UInt16) ServiceInstance Unit) (place : Place A)
    (si : ServiceInstance) : Table₃ A (Bool × UInt16) ServiceInstance Unit :=
  match byIp.lookup place.1 with
  | none => byIp
  | some ports =>
      match ports.lookup place.2 with
      | none => byIp
      | some infos =>
          if (infos.lookup si).isSome then
            if (infos.erase si).entries.isEmpty then
              if (ports.erase place.2).entries.isEmpty then byIp.erase place.1
              else byIp.insert place.1 (ports.erase place.2)
            else byIp.insert place.1 (ports.insert place.2 (infos.erase si))
          else byIp

/-- Source: `service_discovery_impl::remove_remote_offer_type`. -/
def RemoteOffers.removeRemoteOfferType (s : RemoteOffers A) (si : ServiceInstance)
    (at_ : Endpoints A) : RemoteOffers A :=
  let byIp :=
    if at_.reliablePort ≠ illegalPort then
      deleteFrom s.byIp (at_.reliableAddress, (true, at_.reliablePort)) si
    else s.byIp
  let byIp :=
    if at_.unreliablePort ≠ illegalPort then
      deleteFrom byIp (at_.unreliableAddress, (false, at_.unreliablePort)) si
    else byIp
  ⟨s.types.erase si, byIp⟩

/-- Erase several keys. -/
def eraseAll (types : AList fun _ : ServiceInstance => ReliabilityType)
    (sis : List ServiceInstance) : AList fun _ : ServiceInstance => ReliabilityType :=
  sis.foldl (fun types si => types.erase si) types

/-- Source: `service_discovery_impl::remove_remote_offer_type_by_ip`. -/
def RemoteOffers.removeRemoteOfferTypeByIp (s : RemoteOffers A) (address : A) (port : UInt16)
    (reliable : Bool) : RemoteOffers A :=
  match s.byIp.lookup address with
  | none => s
  | some ports =>
      if port = anyPort then
        ⟨eraseAll s.types (ports.entries.flatMap fun e => e.2.keys), s.byIp.erase address⟩
      else
        match ports.lookup (reliable, port) with
        | none => s
        | some infos =>
            ⟨eraseAll s.types infos.keys,
              if (ports.erase (reliable, port)).entries.isEmpty then s.byIp.erase address
              else s.byIp.insert address (ports.erase (reliable, port))⟩

/-! ### Entry by entry -/

/-- The service instance is listed under an address, reliability and port. -/
def Listed (byIp : Table₃ A (Bool × UInt16) ServiceInstance Unit) (si : ServiceInstance)
    (place : Place A) : Prop := (get₃ byIp (place.1, place.2, si)).isSome

instance (byIp : Table₃ A (Bool × UInt16) ServiceInstance Unit) (si : ServiceInstance)
    (place : Place A) : Decidable (Listed byIp si place) := inferInstanceAs (Decidable (_ = true))

section Entries

variable {byIp : Table₃ A (Bool × UInt16) ServiceInstance Unit} {place place' : Place A}
  {si si' : ServiceInstance}

/-- An insertion lists one instance more. -/
theorem listed_insertAt : Listed (insertAt byIp place si) si' place' ↔
      si' = si ∧ place' = place ∨ Listed byIp si' place' := by
  rw [Listed, insertAt, ← set₃_some, get₃_set₃]
  split_ifs with h
  · obtain ⟨h₁, h₂, h₃⟩ : place'.1 = place.1 ∧ place'.2 = place.2 ∧ si' = si := by simpa using h
    exact iff_of_true rfl (.inl ⟨h₃, Prod.ext h₁ h₂⟩)
  · refine (or_iff_right ?_).symm
    rintro ⟨rfl, rfl⟩
    exact h rfl

/-- A deletion takes one out. -/
theorem listed_deleteFrom : Listed (deleteFrom byIp place si) si' place' ↔
      Listed byIp si' place' ∧ ¬ (si' = si ∧ place' = place) := by
  -- where there is nothing to delete, the entry is not listed to begin with
  have hnone (h : get₃ byIp (place.1, place.2, si) = none) :
      Listed byIp si' place' ↔ Listed byIp si' place' ∧ ¬ (si' = si ∧ place' = place) := by
    refine (and_iff_left_of_imp ?_).symm
    rintro hlisted ⟨rfl, rfl⟩
    rw [Listed, h] at hlisted
    cases hlisted
  rw [deleteFrom]
  rcases hports : byIp.lookup place.1 with _ | ports
  · exact hnone (by simp [get₃, Table.inner, hports])
  · dsimp only
    rcases hinfos : ports.lookup place.2 with _ | infos
    · exact hnone (by simp [get₃, Table.inner, hports, hinfos])
    · dsimp only
      by_cases hsi : (infos.lookup si).isSome
      · have hinner : Table.inner byIp place.1 = ports := by rw [Table.inner, hports, Option.getD_some]
        have hinner' : Table.inner ports place.2 = infos := by
          rw [Table.inner, hinfos, Option.getD_some]
        have hset := set₃_none byIp place.1 place.2 si
        rw [hinner, hinner'] at hset
        rw [if_pos hsi, ← hset, Listed, get₃_set₃]
        split_ifs with h
        · obtain ⟨h₁, h₂, h₃⟩ : place'.1 = place.1 ∧ place'.2 = place.2 ∧ si' = si := by
            simpa using h
          apply iff_of_false
          · intro hlisted
            cases hlisted
          · intro hand
            exact hand.2 ⟨h₃, Prod.ext h₁ h₂⟩
        · refine (and_iff_left ?_).symm
          rintro ⟨rfl, rfl⟩
          exact h rfl
      · rw [if_neg hsi]
        refine hnone ?_
        rw [Option.not_isSome_iff_eq_none] at hsi
        simp [get₃, Table.inner, hports, hinfos, hsi]

theorem lookup_eraseAll (types : AList fun _ : ServiceInstance => ReliabilityType)
    (sis : List ServiceInstance) (si : ServiceInstance) :
    (eraseAll types sis).lookup si = if si ∈ sis then none else types.lookup si := by
  induction sis generalizing types with
  | nil => simp [eraseAll]
  | cons si' sis ih =>
      rw [eraseAll, foldl_cons, ← eraseAll, ih]
      by_cases h : si = si'
      · subst h
        simp
      · simp [h]

/-- The places that a removal by address takes out. -/
def Removes (address : A) (port : UInt16) (reliable : Bool) (place : Place A) : Prop :=
  place.1 = address ∧ (port = anyPort ∨ place.2 = (reliable, port))

theorem listed_erase {address : A} :
    Listed (byIp.erase address) si place ↔ Listed byIp si place ∧ place.1 ≠ address := by
  obtain ⟨a, q⟩ := place
  by_cases h : a = address
  · subst h
    simp [Listed, get₃, Table.inner]
  · simp [Listed, get₃, Table.inner, h]

theorem listed_erase_port {address : A} {port : Bool × UInt16} :
    Listed (if ((Table.inner byIp address).erase port).entries.isEmpty then byIp.erase address
        else byIp.insert address ((Table.inner byIp address).erase port)) si place ↔
      Listed byIp si place ∧ place ≠ (address, port) := by
  have hput : (if ((Table.inner byIp address).erase port).entries.isEmpty then byIp.erase address
      else byIp.insert address ((Table.inner byIp address).erase port)) =
      put byIp address (prune ((Table.inner byIp address).erase port)) := by
    rw [prune]
    split_ifs <;> rfl
  obtain ⟨a, q⟩ := place
  rw [hput, Listed, get₃, inner_put_prune]
  by_cases ha : a = address
  · subst ha
    by_cases hq : q = port
    · subst hq
      simp [Table.inner]
    · simp [Listed, get₃, Table.inner, hq]
  · simp [Listed, get₃, ha]

theorem listed_iff_of_lookup {address : A} {port : Bool × UInt16}
    {ports : AList fun _ : Bool × UInt16 => AList fun _ : ServiceInstance => Unit}
    (h : byIp.lookup address = some ports) :
    Listed byIp si (address, port) ↔ ∃ infos, ports.lookup port = some infos ∧ si ∈ infos := by
  rw [Listed, get₃, Table.inner, Table.inner, h, Option.getD_some]
  rcases ports.lookup port with _ | infos
  · simp
  · simp [lookup_isSome]

theorem not_listed_of_lookup {address : A} (h : byIp.lookup address = none)
    (hplace : place.1 = address) : ¬ Listed byIp si place := by
  obtain ⟨a, q⟩ := place
  subst hplace
  simp [Listed, get₃, Table.inner, h]

theorem mem_keys_iff {address : A}
    {ports : AList fun _ : Bool × UInt16 => AList fun _ : ServiceInstance => Unit}
    (h : byIp.lookup address = some ports) :
    si ∈ (ports.entries.flatMap fun e => e.2.keys) ↔ ∃ port, Listed byIp si (address, port) := by
  simp only [mem_flatMap, listed_iff_of_lookup h]
  constructor
  · rintro ⟨⟨port, infos⟩, hmem, hsi⟩
    exact ⟨port, infos, mem_lookup_iff.mpr hmem, mem_keys.mpr hsi⟩
  · rintro ⟨port, infos, hlookup, hsi⟩
    exact ⟨⟨port, infos⟩, mem_lookup_iff.mp hlookup, mem_keys.mp hsi⟩

end Entries

/-- What a removal by address does to the two indices. -/
theorem removeByIp_spec (s : RemoteOffers A) (address : A) (port : UInt16) (reliable : Bool)
    (si : ServiceInstance) :
    (∀ place, Listed (s.removeRemoteOfferTypeByIp address port reliable).byIp si place ↔
        Listed s.byIp si place ∧ ¬ Removes address port reliable place) ∧
      (si ∈ (s.removeRemoteOfferTypeByIp address port reliable).types ↔
        si ∈ s.types ∧ ¬ ∃ place, Removes address port reliable place ∧ Listed s.byIp si place) := by
  have hmem (sis : List ServiceInstance) :
      si ∈ eraseAll s.types sis ↔ si ∈ s.types ∧ si ∉ sis := by
    rw [← AList.lookup_isSome, lookup_eraseAll, ← AList.lookup_isSome]
    split_ifs with h <;> simp [h]
  rw [RemoteOffers.removeRemoteOfferTypeByIp]
  rcases hports : s.byIp.lookup address with _ | ports
  · have hnot : ∀ place, Removes address port reliable place → ¬ Listed s.byIp si place :=
      fun place h => not_listed_of_lookup hports h.1
    refine ⟨fun place => (and_iff_left_of_imp fun h hr => hnot place hr h).symm,
      (and_iff_left ?_).symm⟩
    rintro ⟨place, hr, h⟩
    exact hnot place hr h
  · dsimp only
    have hinner : Table.inner s.byIp address = ports := by rw [Table.inner, hports, Option.getD_some]
    by_cases hany : port = anyPort
    · rw [if_pos hany]
      refine ⟨fun place => ?_, ?_⟩
      · simp only [listed_erase, Removes, hany, true_or, and_true, ne_eq]
      · rw [hmem, mem_keys_iff hports]
        refine and_congr_right fun _ => not_congr ⟨?_, ?_⟩
        · rintro ⟨q, h⟩
          exact ⟨(address, q), ⟨rfl, .inl hany⟩, h⟩
        · rintro ⟨⟨a, q⟩, ⟨rfl, -⟩, h⟩
          exact ⟨q, h⟩
    · rw [if_neg hany]
      have hremoves (place : Place A) :
          Removes address port reliable place ↔ place = (address, (reliable, port)) := by
        rw [Removes, or_iff_right hany, @Prod.ext_iff _ _ place]
      simp only [hremoves, exists_eq_left]
      have hlisted := @listed_iff_of_lookup A _ s.byIp si address (reliable, port) ports hports
      rcases hinfos : ports.lookup (reliable, port) with _ | infos
      · have hnot : ¬ Listed s.byIp si (address, (reliable, port)) := by
          rw [hlisted, hinfos]
          rintro ⟨_, ⟨⟩, -⟩
        refine ⟨fun place => (and_iff_left_of_imp ?_).symm, (and_iff_left hnot).symm⟩
        rintro h rfl
        exact hnot h
      · refine ⟨fun place => ?_, ?_⟩
        · dsimp only
          rw [← hinner]
          exact listed_erase_port
        · rw [hmem, hlisted, hinfos]
          simp [AList.mem_keys]

/-! ### Offers and where they are listed -/

/-- An offer: its kind and its endpoints. -/
abbrev RemoteOffer (A : Type) := ReliabilityType × Endpoints A

/-- The place of the reliable endpoint. -/
def Endpoints.reliablePlace (at_ : Endpoints A) : Place A :=
  (at_.reliableAddress, (true, at_.reliablePort))

/-- The place of the unreliable endpoint. -/
def Endpoints.unreliablePlace (at_ : Endpoints A) : Place A :=
  (at_.unreliableAddress, (false, at_.unreliablePort))

/-- The address, reliability and port of each endpoint that an offer has. -/
def RemoteOffer.places (offer : RemoteOffer A) : List (Place A) :=
  match offer.1 with
  | .reliable => [offer.2.reliablePlace]
  | .unreliable => [offer.2.unreliablePlace]
  | .both => [offer.2.unreliablePlace, offer.2.reliablePlace]
  | .unknown => []

/-- The two indices and the latest offer of each service instance. -/
structure OfferHistory (A : Type) where
  offers : RemoteOffers A
  latest : AList fun _ : ServiceInstance => RemoteOffer A

/-- The calls of the service discovery. -/
inductive OfferCall (A : Type)
  | update (si : ServiceInstance) (offer : RemoteOffer A)
  | remove (si : ServiceInstance) (at_ : Endpoints A)
  | removeByIp (address : A) (port : UInt16) (reliable : Bool)

/-- The state after a call. -/
def OfferHistory.after (h : OfferHistory A) : OfferCall A → OfferHistory A
  | .update si offer =>
      ⟨(h.offers.updateRemoteOfferType si offer.1 offer.2).2, h.latest.insert si offer⟩
  | .remove si at_ => ⟨h.offers.removeRemoteOfferType si at_, h.latest⟩
  | .removeByIp address port reliable =>
      ⟨h.offers.removeRemoteOfferTypeByIp address port reliable, h.latest⟩

/-- A call as a step of a run. -/
def OfferHistory.step (h : OfferHistory A) (call : OfferCall A) :
    Except Empty (Unit × OfferHistory A) := .ok ((), h.after call)

/-- **The indices agree**: the same service instances have a type and are listed, and each is listed
exactly where its latest offer puts it. -/
def OfferHistory.Agree (h : OfferHistory A) : Prop :=
  ∀ si, (si ∈ h.offers.types ↔ ∃ place, Listed h.offers.byIp si place) ∧
    (si ∈ h.offers.types → ∀ offer ∈ h.latest.lookup si, ∀ place,
      Listed h.offers.byIp si place ↔ place ∈ offer.places)

/-- The condition on a call and the state before it. An offer has a known kind, the endpoints of an
offer of both kinds have one address, and an offer repeats the endpoints of the one before it, if
that one has not been removed. A stop offer names all the endpoints of the offer. No service with
both kinds of endpoints is removed by one of its ports. -/
def OfferCall.Keeps (h : OfferHistory A) : OfferCall A → Prop
  | .update si offer =>
      offer.1 ≠ .unknown ∧
        (offer.1 = .both → offer.2.unreliableAddress = offer.2.reliableAddress) ∧
        (si ∈ h.offers.types → ∀ old ∈ h.latest.lookup si, old.places ⊆ offer.places)
  | .remove si at_ =>
      si ∈ h.offers.types → ∀ old ∈ h.latest.lookup si, ∀ place ∈ old.places,
        place = at_.reliablePlace ∧ at_.reliablePort ≠ illegalPort ∨
          place = at_.unreliablePlace ∧ at_.unreliablePort ≠ illegalPort
  | .removeByIp address port reliable =>
      port ≠ anyPort → ∀ si ∈ h.offers.types, ∀ old ∈ h.latest.lookup si,
        (address, (reliable, port)) ∈ old.places → old.1 ≠ .both

/-! ### One call -/

/-- A service instance with a type is listed exactly where its latest offer puts it, at one address;
one without a type is not listed. -/
def Settled (h : OfferHistory A) (si : ServiceInstance) : Prop :=
  (si ∉ h.offers.types ∧ ∀ place, ¬ Listed h.offers.byIp si place) ∨
    ∃ offer, si ∈ h.offers.types ∧ h.latest.lookup si = some offer ∧ offer.1 ≠ .unknown ∧
      (offer.1 = .both → offer.2.unreliableAddress = offer.2.reliableAddress) ∧
      ∀ place, Listed h.offers.byIp si place ↔ place ∈ offer.places

omit [DecidableEq A] in
theorem RemoteOffer.places_ne_nil {offer : RemoteOffer A} (h : offer.1 ≠ .unknown) :
    ∃ place, place ∈ offer.places := by
  obtain ⟨type, at_⟩ := offer
  cases type with
  | reliable => exact ⟨_, mem_singleton_self _⟩
  | unreliable => exact ⟨_, mem_singleton_self _⟩
  | both => exact ⟨_, mem_cons_self ..⟩
  | unknown => exact absurd rfl h

/-- The two tables agree where each instance is settled. -/
theorem agree_of_settled {h : OfferHistory A} (hs : ∀ si, Settled h si) : h.Agree := by
  intro si
  rcases hs si with ⟨hnot, hlisted⟩ | ⟨offer, hmem, hlatest, hknown, -, hlisted⟩
  · exact ⟨iff_of_false hnot fun ⟨place, h⟩ => hlisted place h, fun h => absurd h hnot⟩
  · obtain ⟨place, hplace⟩ := offer.places_ne_nil hknown
    refine ⟨iff_of_true hmem ⟨place, (hlisted place).mpr hplace⟩, ?_⟩
    intro _ offer' hoffer'
    obtain rfl := Option.some.inj (hlatest.symm.trans hoffer')
    exact hlisted

/-- Where an update lists a service instance. -/
def RemoteOffer.entered (offer : RemoteOffer A) : List (Place A) :=
  match offer.1 with
  | .reliable => [offer.2.reliablePlace]
  | .unreliable => [offer.2.unreliablePlace]
  | .both =>
      [offer.2.unreliablePlace, (offer.2.unreliableAddress, (true, offer.2.reliablePort))]
  | .unknown => []

omit [DecidableEq A] in
theorem RemoteOffer.entered_eq {offer : RemoteOffer A}
    (h : offer.1 = .both → offer.2.unreliableAddress = offer.2.reliableAddress) :
    offer.entered = offer.places := by
  obtain ⟨type, at_⟩ := offer
  cases type with
  | both =>
      have heq : at_.unreliableAddress = at_.reliableAddress := h rfl
      simp only [entered, places, heq, Endpoints.reliablePlace]
  | reliable => rfl
  | unreliable => rfl
  | unknown => rfl

/-- What an offer lists. Source: `update_remote_offer_type` -/
theorem listed_update (s : RemoteOffers A) (si si' : ServiceInstance) (offer : RemoteOffer A)
    (place : Place A) : Listed (s.updateRemoteOfferType si offer.1 offer.2).2.byIp si' place ↔
      si' = si ∧ place ∈ offer.entered ∨ Listed s.byIp si' place := by
  obtain ⟨type, at_⟩ := offer
  cases type with
  | reliable =>
      simp only [RemoteOffers.updateRemoteOfferType, listed_insertAt, RemoteOffer.entered,
        mem_singleton, Endpoints.reliablePlace]
  | unreliable =>
      simp only [RemoteOffers.updateRemoteOfferType, listed_insertAt, RemoteOffer.entered,
        mem_singleton, Endpoints.unreliablePlace]
  | both =>
      simp only [RemoteOffers.updateRemoteOfferType, listed_insertAt, RemoteOffer.entered,
        mem_cons, not_mem_nil, or_false, Endpoints.unreliablePlace]
      tauto
  | unknown => simp [RemoteOffers.updateRemoteOfferType, RemoteOffer.entered]

/-- What a stop offer leaves. Source: `remove_remote_offer_type` -/
theorem listed_remove (s : RemoteOffers A) (si si' : ServiceInstance) (at_ : Endpoints A)
    (place : Place A) : Listed (s.removeRemoteOfferType si at_).byIp si' place ↔
      Listed s.byIp si' place ∧
        ¬ (si' = si ∧ (place = at_.reliablePlace ∧ at_.reliablePort ≠ illegalPort ∨
          place = at_.unreliablePlace ∧ at_.unreliablePort ≠ illegalPort)) := by
  simp only [RemoteOffers.removeRemoteOfferType, Endpoints.reliablePlace,
    Endpoints.unreliablePlace]
  split_ifs with h₁ h₂ h₂
  · simp only [listed_deleteFrom]
    tauto
  · simp only [listed_deleteFrom]
    tauto
  · simp only [listed_deleteFrom]
    tauto
  · tauto

omit [DecidableEq A] in
/-- The endpoints of an offer of both kinds are two places. -/
theorem RemoteOffer.eq_of_mem_places {offer : RemoteOffer A} (h : offer.1 ≠ .both)
    {place place' : Place A} (hp : place ∈ offer.places) (hp' : place' ∈ offer.places) :
    place = place' := by
  obtain ⟨type, at_⟩ := offer
  cases type with
  | both => exact absurd rfl h
  | reliable => rw [mem_singleton.mp hp, mem_singleton.mp hp']
  | unreliable => rw [mem_singleton.mp hp, mem_singleton.mp hp']
  | unknown => cases hp

omit [DecidableEq A] in
theorem RemoteOffer.address_eq {offer : RemoteOffer A}
    (h : offer.1 = .both → offer.2.unreliableAddress = offer.2.reliableAddress)
    {place place' : Place A} (hp : place ∈ offer.places) (hp' : place' ∈ offer.places) :
    place.1 = place'.1 := by
  by_cases hboth : offer.1 = .both
  · have heq := h hboth
    obtain ⟨type, at_⟩ := offer
    subst hboth
    simp only [places, mem_cons, not_mem_nil, or_false, Endpoints.unreliablePlace,
      Endpoints.reliablePlace] at hp hp'
    rcases hp with rfl | rfl <;> rcases hp' with rfl | rfl
    · rfl
    · exact heq
    · exact heq.symm
    · rfl
  · rw [eq_of_mem_places hboth hp hp']

/-- A call that changes nothing about a service instance leaves it settled. -/
theorem Settled.congr {h h' : OfferHistory A} {si : ServiceInstance} (hs : Settled h si)
    (htypes : si ∈ h'.offers.types ↔ si ∈ h.offers.types)
    (hlatest : h'.latest.lookup si = h.latest.lookup si)
    (hlisted : ∀ place, Listed h'.offers.byIp si place ↔ Listed h.offers.byIp si place) :
    Settled h' si := by
  simp only [Settled, htypes, hlatest, hlisted]
  exact hs

section OneCall

variable {h : OfferHistory A}

/-- An offer keeps all instances settled. -/
theorem settled_update (hs : ∀ si, Settled h si) {si : ServiceInstance} {offer : RemoteOffer A}
    (hk : (OfferCall.update si offer).Keeps h) (si' : ServiceInstance) :
    Settled (h.after (.update si offer)) si' := by
  obtain ⟨hknown, haddress, hold⟩ := hk
  by_cases heq : si' = si
  · subst heq
    refine .inr ⟨offer, (mem_insert _).mpr (.inl rfl), lookup_insert _, hknown, haddress,
      fun place => ?_⟩
    rw [OfferHistory.after, listed_update, RemoteOffer.entered_eq haddress]
    constructor
    · rintro (⟨-, hplace⟩ | hlisted)
      · exact hplace
      · rcases hs si' with ⟨-, hnone⟩ | ⟨old, hmem, hlatest, -, -, hplaces⟩
        · exact absurd hlisted (hnone place)
        · exact hold hmem old hlatest ((hplaces place).mp hlisted)
    · exact fun hplace => .inl ⟨rfl, hplace⟩
  · refine (hs si').congr ?_ (lookup_insert_ne heq) fun place => ?_
    · exact (mem_insert _).trans (or_iff_right heq)
    · rw [OfferHistory.after, listed_update]
      exact or_iff_right fun hand => heq hand.1

/-- So does a stop offer. -/
theorem settled_remove (hs : ∀ si, Settled h si) {si : ServiceInstance} {at_ : Endpoints A}
    (hk : (OfferCall.remove si at_).Keeps h) (si' : ServiceInstance) :
    Settled (h.after (.remove si at_)) si' := by
  by_cases heq : si' = si
  · subst heq
    refine .inl ⟨fun hmem => (mem_erase.mp hmem).1 rfl, fun place hlisted => ?_⟩
    rw [OfferHistory.after, listed_remove] at hlisted
    rcases hs si' with ⟨-, hnone⟩ | ⟨old, hmem, hlatest, -, -, hplaces⟩
    · exact hnone place hlisted.1
    · exact hlisted.2 ⟨rfl, hk hmem old hlatest place ((hplaces place).mp hlisted.1)⟩
  · refine (hs si').congr ?_ rfl fun place => ?_
    · exact mem_erase.trans (and_iff_right heq)
    · rw [OfferHistory.after, listed_remove]
      exact and_iff_left fun hand => heq hand.1

/-- So does the removal of an address or a port. Source: `remove_remote_offer_type_by_ip` -/
theorem settled_removeByIp (hs : ∀ si, Settled h si) {address : A} {port : UInt16} {reliable : Bool}
    (hk : (OfferCall.removeByIp address port reliable).Keeps h) (si : ServiceInstance) :
    Settled (h.after (.removeByIp address port reliable)) si := by
  obtain ⟨hlisted, htypes⟩ := removeByIp_spec h.offers address port reliable si
  by_cases hex : ∃ place, Removes address port reliable place ∧ Listed h.offers.byIp si place
  · refine .inl ⟨fun hmem => (htypes.mp hmem).2 hex, fun place hafter => ?_⟩
    obtain ⟨hbefore, hkept⟩ := (hlisted place).mp hafter
    obtain ⟨place', hremoved, hbefore'⟩ := hex
    rcases hs si with ⟨-, hnone⟩ | ⟨old, hmem, hlatest, -, haddress, hplaces⟩
    · exact hnone place hbefore
    · have hp := (hplaces place).mp hbefore
      have hp' := (hplaces place').mp hbefore'
      by_cases hany : port = anyPort
      · exact hkept ⟨(RemoteOffer.address_eq haddress hp hp').trans hremoved.1, .inl hany⟩
      · have hplace' : place' = (address, (reliable, port)) :=
          Prod.ext hremoved.1 (hremoved.2.resolve_left hany)
        have hne := hk hany si hmem old hlatest (hplace' ▸ hp')
        rw [RemoteOffer.eq_of_mem_places hne hp hp'] at hkept
        exact hkept hremoved
  · refine (hs si).congr (htypes.trans (and_iff_left hex)) rfl fun place => ?_
    refine (hlisted place).trans (and_iff_left_of_imp fun hbefore hremoved => ?_)
    exact hex ⟨place, hremoved, hbefore⟩

/-- A call that meets the condition leaves every service instance settled. -/
theorem settled_after (hs : ∀ si, Settled h si) {call : OfferCall A} (hk : call.Keeps h)
    (si : ServiceInstance) : Settled (h.after call) si := by
  cases call with
  | update => exact settled_update hs hk si
  | remove => exact settled_remove hs hk si
  | removeByIp => exact settled_removeByIp hs hk si

/-- The latest offer of a settled service instance with a type. -/
theorem Settled.listed_iff {si : ServiceInstance} (hs : Settled h si) (hmem : si ∈ h.offers.types)
    {offer : RemoteOffer A} (hoffer : offer ∈ h.latest.lookup si) (place : Place A) :
    Listed h.offers.byIp si place ↔ place ∈ offer.places := by
  rcases hs with ⟨hnot, -⟩ | ⟨offer', -, hlatest, -, -, hlisted⟩
  · exact absurd hmem hnot
  · obtain rfl := Option.some.inj (hlatest.symm.trans hoffer)
    exact hlisted place

/-- Conversely, for an offer. -/
theorem keeps_update_of_agree (hs : ∀ si, Settled h si) {si : ServiceInstance}
    {offer : RemoteOffer A} (ha : (h.after (.update si offer)).Agree) :
    (OfferCall.update si offer).Keeps h := by
  have hmem : si ∈ (h.after (.update si offer)).offers.types := (mem_insert _).mpr (.inl rfl)
  have hplaces := (ha si).2 hmem offer (lookup_insert _)
  obtain ⟨place₀, hplace₀⟩ := (ha si).1.mp hmem
  have hlisted (place : Place A) := listed_update h.offers si si offer place
  refine ⟨fun hunknown => ?_, fun hboth => ?_, fun hold old hlatest place hplace => ?_⟩
  · have hin := (hplaces place₀).mp hplace₀
    simp only [RemoteOffer.places, hunknown] at hin
    cases hin
  · have hentered : (offer.2.unreliableAddress, (true, offer.2.reliablePort)) ∈ offer.entered := by
      simp only [RemoteOffer.entered, hboth, mem_cons, true_or, or_true]
    have hin := (hplaces _).mp ((hlisted _).mpr (.inl ⟨rfl, hentered⟩))
    simp only [RemoteOffer.places, hboth, mem_cons, not_mem_nil, or_false,
      Endpoints.unreliablePlace, Endpoints.reliablePlace, Prod.mk.injEq, Bool.true_eq_false,
      false_and, and_false, false_or, and_true] at hin
    exact hin
  · exact (hplaces place).mp
      ((hlisted place).mpr (.inr (((hs si).listed_iff hold hlatest place).mpr hplace)))

/-- For a stop offer. -/
theorem keeps_remove_of_agree (hs : ∀ si, Settled h si) {si : ServiceInstance} {at_ : Endpoints A}
    (ha : (h.after (.remove si at_)).Agree) : (OfferCall.remove si at_).Keeps h := by
  intro hmem old hlatest place hplace
  have hnot : si ∉ (h.after (.remove si at_)).offers.types :=
    fun hmem => (mem_erase.mp hmem).1 rfl
  by_contra hkept
  refine hnot ((ha si).1.mpr ⟨place, (listed_remove h.offers si si at_ place).mpr ⟨?_, ?_⟩⟩)
  · exact ((hs si).listed_iff hmem hlatest place).mpr hplace
  · exact fun hand => hkept hand.2

/-- For the removal of an address or a port. -/
theorem keeps_removeByIp_of_agree (hs : ∀ si, Settled h si) {address : A} {port : UInt16}
    {reliable : Bool} (ha : (h.after (.removeByIp address port reliable)).Agree) :
    (OfferCall.removeByIp address port reliable).Keeps h := by
  intro hany si hmem old hlatest hplace hboth
  obtain ⟨hlisted, htypes⟩ := removeByIp_spec h.offers address port reliable si
  have hplaces := (hs si).listed_iff hmem hlatest
  have hnot : si ∉ (h.after (.removeByIp address port reliable)).offers.types := fun hafter =>
    (htypes.mp hafter).2 ⟨_, ⟨rfl, .inr rfl⟩, (hplaces _).mpr hplace⟩
  -- the endpoint of the other reliability is still listed
  obtain ⟨place, hin, hne⟩ : ∃ place ∈ old.places, place.2.1 ≠ reliable := by
    cases reliable with
    | true =>
        refine ⟨old.2.unreliablePlace, ?_, Bool.false_ne_true⟩
        simp only [RemoteOffer.places, hboth, mem_cons, true_or]
    | false =>
        refine ⟨old.2.reliablePlace, ?_, nofun⟩
        simp only [RemoteOffer.places, hboth, mem_cons, true_or, or_true]
  refine hnot ((ha si).1.mpr ⟨place, (hlisted place).mpr ⟨(hplaces place).mpr hin, ?_⟩⟩)
  rintro ⟨-, hp⟩
  exact hne (congrArg Prod.fst (hp.resolve_left hany))

/-- **One call.** From indices that agree, a call leads to indices that agree iff it meets the
condition. -/
theorem agree_after_iff (hs : ∀ si, Settled h si) (call : OfferCall A) :
    (h.after call).Agree ↔ call.Keeps h := by
  refine ⟨fun ha => ?_, fun hk => agree_of_settled (settled_after hs hk)⟩
  cases call with
  | update => exact keeps_update_of_agree hs ha
  | remove => exact keeps_remove_of_agree hs ha
  | removeByIp => exact keeps_removeByIp_of_agree hs ha

end OneCall

/-! ### Runs -/

/-- No remote offer has been seen. -/
def OfferHistory.initial : OfferHistory A := ⟨⟨∅, ∅⟩, ∅⟩

/-- Nothing is offered. -/
theorem settled_initial (si : ServiceInstance) : Settled (OfferHistory.initial : OfferHistory A) si :=
  .inl ⟨notMem_empty si, fun _ h => by cases h⟩

/-- **The indices agree along a run** of updates, removals by service and removals by address exactly
if every call meets the condition at the state it finds. -/
theorem indices_agree_iff (calls : List (OfferCall A)) :
    AllSteps OfferHistory.step (fun h call => (h.after call).Agree) OfferHistory.initial calls ↔
      AllSteps OfferHistory.step (fun h call => call.Keeps h) OfferHistory.initial calls := by
  refine AllSteps.iff_of_invariant (fun h => ∀ si, Settled h si) ?_
    (fun h call hs => agree_after_iff hs call) settled_initial
  rintro h call o h' hs hk ⟨⟩
  exact settled_after hs hk

/-- A service that moves to another port is listed under both. -/
theorem moved_service_twice :
    let si : ServiceInstance := (0x1234, 1)
    let first : RemoteOffer Unit := (.unreliable, ⟨(), 0xFFFF, (), 30509⟩)
    let moved : RemoteOffer Unit := (.unreliable, ⟨(), 0xFFFF, (), 30510⟩)
    let h := (OfferHistory.initial.after (.update si first)).after (.update si moved)
    Listed h.offers.byIp si ((), (false, 30509)) ∧ Listed h.offers.byIp si ((), (false, 30510)) ∧
      h.latest.lookup si = some moved ∧ ¬ h.Agree := by
  refine ⟨rfl, rfl, rfl, fun ha => ?_⟩
  have hmem := ((ha (0x1234, 1)).2 (by decide) _ rfl ((), (false, 30509))).mp rfl
  revert hmem
  decide

end SomeipTunnel.Sd
