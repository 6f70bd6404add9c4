import SomeipTunnel.Lib.Cursor
import SomeipTunnel.Security.PolicyCodec

/-!
# What `policy::deserialize` accepts

`policy::deserialize` reads a policy in place: a pointer moves through the bytes, and a size says how
many are left. The lengths of the sections are counted down by unsigned subtraction of what an inner
part has taken, so that a part which takes more than its section has makes the counter wrap around.

The parsers of `InPlace` are those of the source on a cursor. They follow the decoders of the wire
format (`InPlace.follows_deserialize`), so that they end, without a read behind the given size; and
what a decoder takes is a sentence of the grammar (`parses_document`): a counter that has wrapped is
larger than everything that is left, and the reads run into the end.

The grammar is given by its sentences: a `Document` is built from items, services and sections that
are in order, and `Document.encode` are its bytes.

* `deserialize_document`: the parser accepts the bytes that start with those of a document.

Source: vsomeip/implementation/security/src/policy.cpp
-/

namespace SomeipTunnel.Security

open Icl Containers Codec Cursor List

section containers

variable [Containers]

/-! ### Reading in place -/

namespace InPlace

open Parse

/-- Source: `policy::deserialize_u16` -/
def deserializeU16 : Parse ℕ := Parse.word 2

/-- Source: `policy::deserialize_u32` -/
def deserializeU32 : Parse ℕ := Parse.word 4

/-- The bounds behind the length and the type of an item; other types leave them zero.
Source: `policy::deserialize_id_item` -/
def deserializeBounds (itsLength itsType : ℕ) : Parse (ℕ × ℕ) :=
  if itsType = 1 ∧ itsLength = 2 then do
    let low ← deserializeU16
    return (low, low)
  else if itsType = 2 ∧ itsLength = 4 then do
    let low ← deserializeU16
    let high ← deserializeU16
    if low > high then fail else pure (low, high)
  else pure (0, 0)

/-- Handle `ANY_METHOD` and refuse zero.
Source: `policy::deserialize_id_item` -/
def checkBounds (low high : ℕ) : Parse (ℕ × ℕ) :=
  let low := if low = anyMethod ∧ high = anyMethod then 1 else low
  if low ≠ 0 then pure (low, high) else fail

/-- Source: `policy::deserialize_id_item` -/
def deserializeIdItem : Parse (ℕ × ℕ) := do
  let itsLength ← deserializeU32
  let itsType ← deserializeU32
  let bounds ← deserializeBounds itsLength itsType
  checkBounds bounds.1 bounds.2

/-- Source: `policy::deserialize_id_item_list` -/
def deserializeIdItemList : Parse (IntervalSet 16) := do
  let items ← counted 4 deserializeIdItem
  return items.foldl (fun s item => insertInterval s (.closed item.1 item.2)) empty

/-- The body of the loop of `deserialize_ids`. -/
def deserializeIdPair : Parse (IntervalSet 16 × IntervalSet 16) := do
  let itsInstances ← deserializeIdItemList
  let itsMethods ← deserializeIdItemList
  return (itsInstances, itsMethods)

/-- Source: `policy::deserialize_ids` -/
def deserializeIds : Parse (SetMap 16) := do
  let pairs ← counted 4 deserializeIdPair
  return pairs.foldl addIds empty

/-- A service that a policy may name. -/
def deserializeService : Parse ℕ := do
  let itsService ← deserializeU16
  if itsService = 0 ∨ itsService = 0xFFFF then fail else pure itsService

/-- The body of the loop over the requests, up to the sum. -/
def deserializeRequest : Parse (ℕ × SetMap 16) := do
  let itsService ← deserializeService
  let itsIds ← deserializeIds
  return (itsService, itsIds)

/-- The body of the loop over the offers, up to the sum. -/
def deserializeOffer : Parse (ℕ × IntervalSet 16) := do
  let itsService ← deserializeService
  let itsInstances ← deserializeIdItemList
  return (itsService, itsInstances)

/-- Source: `policy::deserialize` -/
def deserialize (p : Policy) : Parse Policy := do
  let itsUid ← deserializeU32
  let itsGid ← deserializeU32
  let itsRequests ← counted 4 deserializeRequest
  let itsOffers ← counted 4 deserializeOffer
  return {
    credentials := add p.credentials (.closed itsUid itsUid) (itsGidSet itsGid)
    allowWho := true
    requests := itsRequests.foldl addRequest p.requests
    offers := itsOffers.foldl addOffer p.offers
    allowWhat := true }

/-! ### The parsers follow the decoders -/

omit [Containers] in
/-- The bounds of an item are read as they are decoded. -/
theorem follows_bounds (itsLength itsType : ℕ) : Follows (deserializeBounds itsLength itsType)
      (Security.deserializeBounds itsLength itsType) := by
  unfold deserializeBounds Security.deserializeBounds
  split_ifs
  · exact (follows_word 2).bind fun low => follows_pure (low, low)
  · refine (follows_word 2).bind fun low => (follows_word 2).bind fun high => ?_
    split_ifs
    · exact follows_fail
    · exact follows_pure (low, high)
  · exact follows_pure (0, 0)

omit [Containers] in
/-- The check is the one of the decoder. -/
theorem follows_checkBounds (low high : ℕ) :
    Follows (checkBounds low high) (Security.checkBounds low high) := by
  unfold checkBounds Security.checkBounds
  exact follows_guard (follows_pure _)

omit [Containers] in
/-- An item is read as it is decoded. -/
theorem follows_idItem : Follows deserializeIdItem Security.deserializeIdItem :=
  (follows_word 4).bind fun itsLength => (follows_word 4).bind fun itsType =>
    (follows_bounds itsLength itsType).bind fun bounds => follows_checkBounds bounds.1 bounds.2

omit [Containers] in
/-- An item has a length and a type at least. -/
theorem atLeast_idItem : AtLeast 1 Security.deserializeIdItem := by
  have hbounds : ∀ itsLength itsType, AtLeast 0 (Security.deserializeBounds itsLength itsType) := by
    intro itsLength itsType
    unfold Security.deserializeBounds
    split_ifs
    · exact (atLeast_word 2).bind_zero fun low => atLeast_pure (low, low)
    · refine (atLeast_word 2).bind_zero fun low => (atLeast_word 2).bind_zero fun high => ?_
      split_ifs
      · exact atLeast_failure 0
      · exact atLeast_pure (low, high)
    · exact atLeast_pure (0, 0)
  have hitem : AtLeast (4 + 0) Security.deserializeIdItem :=
    (atLeast_word 4).bind fun itsLength => (atLeast_word 4).bind_zero fun itsType =>
      (hbounds itsLength itsType).bind_zero fun bounds => (atLeast_pure _).guard
  exact hitem.mono (by decide)

theorem follows_idItemList : Follows deserializeIdItemList Security.deserializeIdItemList :=
  (follows_counted 4 follows_idItem atLeast_idItem).bind fun _ => follows_pure _

theorem atLeast_idItemList : AtLeast 4 Security.deserializeIdItemList :=
  (atLeast_array 4 (atLeast_idItem.mono (Nat.zero_le 1))).bind fun _ => atLeast_pure _

theorem follows_idPair : Follows deserializeIdPair Security.deserializeIdPair :=
  follows_idItemList.bind fun _ => follows_idItemList.bind fun _ => follows_pure _

theorem atLeast_idPair : AtLeast 4 Security.deserializeIdPair :=
  atLeast_idItemList.bind fun _ => atLeast_idItemList.bind_zero fun _ => atLeast_pure _

theorem follows_ids : Follows deserializeIds Security.deserializeIds :=
  (follows_counted 4 follows_idPair (atLeast_idPair.mono (by decide))).bind fun _ => follows_pure _

theorem atLeast_ids : AtLeast 4 Security.deserializeIds :=
  (atLeast_array 4 (atLeast_idPair.mono (Nat.zero_le 4))).bind fun _ => atLeast_pure _

omit [Containers] in
/-- A service is read as it is decoded. -/
theorem follows_service : Follows deserializeService Security.deserializeService := by
  refine (follows_word 2).bind fun itsService => ?_
  split_ifs
  · exact follows_fail
  · exact follows_pure itsService

omit [Containers] in
/-- The decoder of a service gives nothing back. -/
theorem atLeast_service : AtLeast 0 Security.deserializeService := by
  refine (atLeast_word 2).bind_zero fun itsService => ?_
  split_ifs
  · exact atLeast_failure 0
  · exact atLeast_pure itsService

theorem follows_request : Follows deserializeRequest Security.deserializeRequest :=
  follows_service.bind fun _ => follows_ids.bind fun _ => follows_pure _

theorem atLeast_request : AtLeast 1 Security.deserializeRequest := by
  have h : AtLeast (0 + (4 + 0)) Security.deserializeRequest :=
    atLeast_service.bind fun _ => atLeast_ids.bind fun _ => atLeast_pure _
  exact h.mono (by decide)

theorem follows_offer : Follows deserializeOffer Security.deserializeOffer :=
  follows_service.bind fun _ => follows_idItemList.bind fun _ => follows_pure _

theorem atLeast_offer : AtLeast 1 Security.deserializeOffer := by
  have h : AtLeast (0 + (4 + 0)) Security.deserializeOffer :=
    atLeast_service.bind fun _ => atLeast_idItemList.bind fun _ => atLeast_pure _
  exact h.mono (by decide)

/-- **Reading in place is decoding**: no fault, and no read behind the bytes that remain. -/
theorem follows_deserialize (p : Policy) : Follows (deserialize p) (p.deserialize) :=
  (follows_word 4).bind fun _ => (follows_word 4).bind fun _ =>
    (follows_counted 4 follows_request atLeast_request).bind fun _ =>
      (follows_counted 4 follows_offer atLeast_offer).bind fun _ => follows_pure _

end InPlace

/-! ### The grammar -/

/-- An item: a single number of type 1, or a range of type 2. -/
inductive IdItem
  | single (id : ℕ) (pos : id ≠ 0) (lt : id < 2 ^ 16)
  | range (low high : ℕ) (pos : low ≠ 0) (le : low ≤ high) (lt : high < 2 ^ 16)

/-- Length, type and numbers of an item. -/
def IdItem.encode : IdItem → List UInt8
  | .single id _ _ => toBytes 4 2 ++ (toBytes 4 1 ++ toBytes 2 id)
  | .range low high _ _ _ => toBytes 4 4 ++ (toBytes 4 2 ++ (toBytes 2 low ++ toBytes 2 high))

/-- The first and the last number of an item. -/
def IdItem.ends : IdItem → ℕ × ℕ
  | .single id _ _ => (id, id)
  | .range low high _ _ _ => (low, high)

/-- The interval that is read from an item: a lone `ANY_METHOD` stands for every number. -/
def IdItem.bounds (item : IdItem) : ℕ × ℕ :=
  (if item.ends.1 = anyMethod ∧ item.ends.2 = anyMethod then 1 else item.ends.1, item.ends.2)

/-- A section of items behind its length. -/
def encodeItems (items : List IdItem) : List UInt8 := framed 4 (items.flatMap IdItem.encode)

/-- The set of the numbers of some items. -/
def itemSet (items : List IdItem) : IntervalSet 16 :=
  (items.map IdItem.bounds).foldl (fun s item => insertInterval s (.closed item.1 item.2)) empty

/-- Instances and the methods they may be called with. -/
structure IdPair where
  instances : List IdItem
  methods : List IdItem

def IdPair.encode (pair : IdPair) : List UInt8 :=
  encodeItems pair.instances ++ encodeItems pair.methods

/-- The sets of a pair. -/
def IdPair.value (pair : IdPair) : IntervalSet 16 × IntervalSet 16 :=
  (itemSet pair.instances, itemSet pair.methods)

/-- The identifiers that a policy may name as a service. -/
abbrev ServiceId := { service : ℕ // service ≠ 0 ∧ service ≠ 0xFFFF ∧ service < 2 ^ 16 }

/-- A service and what may be requested of it. -/
structure RequestItem where
  service : ServiceId
  ids : List IdPair

def RequestItem.encode (request : RequestItem) : List UInt8 :=
  toBytes 2 request.service ++ framed 4 (request.ids.flatMap IdPair.encode)

/-- The request that is added to the policy. -/
def RequestItem.value (request : RequestItem) : ℕ × SetMap 16 :=
  (request.service, (request.ids.map IdPair.value).foldl addIds empty)

/-- A service and the instances of it that may be offered. -/
structure OfferItem where
  service : ServiceId
  instances : List IdItem

def OfferItem.encode (offer : OfferItem) : List UInt8 :=
  toBytes 2 offer.service ++ encodeItems offer.instances

/-- The offer that is added to the policy. -/
def OfferItem.value (offer : OfferItem) : ℕ × IntervalSet 16 :=
  (offer.service, itemSet offer.instances)

/-- A sentence of the grammar. -/
structure Document where
  uid : UInt32
  gid : UInt32
  requests : List RequestItem
  offers : List OfferItem

def Document.encode (d : Document) : List UInt8 :=
  toBytes 4 d.uid.toNat ++ (toBytes 4 d.gid.toNat ++
    (framed 4 (d.requests.flatMap RequestItem.encode) ++
      framed 4 (d.offers.flatMap OfferItem.encode)))

/-- The policy with the rights that the document names. -/
def Document.addTo (d : Document) (p : Policy) : Policy where
  credentials := add p.credentials (.closed d.uid.toNat d.uid.toNat) (itsGidSet d.gid.toNat)
  allowWho := true
  requests := (d.requests.map RequestItem.value).foldl addRequest p.requests
  offers := (d.offers.map OfferItem.value).foldl addOffer p.offers
  allowWhat := true

/-! ### What is taken is a sentence -/

omit [Containers] in
/-- What passes the check has a lower bound, and the check takes nothing. -/
theorem run_checkBounds {low high : ℕ} {a : ℕ × ℕ} {data rest : List UInt8}
    (h : (checkBounds low high).run data = some (a, rest)) :
    low ≠ 0 ∧ a = (if low = anyMethod ∧ high = anyMethod then 1 else low, high) ∧ rest = data := by
  unfold checkBounds at h
  dsimp only at h
  split_ifs at h with hany hone hlow
  · obtain ⟨rfl, rfl⟩ := Prod.mk.inj (Option.some.inj h)
    exact ⟨by rw [hany.1]; decide, by rw [if_pos hany], rfl⟩
  · cases h
  · obtain ⟨rfl, rfl⟩ := Prod.mk.inj (Option.some.inj h)
    exact ⟨hlow, by rw [if_neg hany], rfl⟩
  · cases h

omit [Containers] in
/-- What is taken as an item is one. -/
theorem parses_idItem (bound : ℕ) : Parses bound deserializeIdItem IdItem.encode IdItem.bounds := by
  intro data _ a rest h
  obtain ⟨itsLength, data₁, hlength, h₁⟩ := run_bind_eq_some.mp h
  obtain ⟨itsType, data₂, htype, h₂⟩ := run_bind_eq_some.mp h₁
  obtain ⟨⟨low, high⟩, data₃, hbounds, hcheck⟩ := run_bind_eq_some.mp h₂
  obtain rfl := exact_word 4 data itsLength data₁ hlength
  obtain rfl := exact_word 4 data₁ itsType data₂ htype
  obtain ⟨hpos, rfl, rfl⟩ := run_checkBounds hcheck
  unfold deserializeBounds at hbounds
  split_ifs at hbounds with hsingle hrange
  · obtain ⟨rfl, rfl⟩ := hsingle
    obtain ⟨id, data₄, hid, hpure⟩ := run_bind_eq_some.mp hbounds
    obtain ⟨⟨rfl, rfl⟩, rfl⟩ := Prod.mk.inj (Option.some.inj hpure)
    obtain rfl := exact_word 2 data₂ _ _ hid
    exact ⟨.single _ hpos (lt_of_run_word hid), by simp [IdItem.encode], rfl⟩
  · obtain ⟨rfl, rfl⟩ := hrange
    obtain ⟨low', data₄, hlow, hrest⟩ := run_bind_eq_some.mp hbounds
    obtain ⟨high', data₅, hhigh, hle⟩ := run_bind_eq_some.mp hrest
    split_ifs at hle with hgt
    · cases hle
    obtain ⟨⟨rfl, rfl⟩, rfl⟩ := Prod.mk.inj (Option.some.inj hle)
    obtain rfl := exact_word 2 data₂ _ _ hlow
    obtain rfl := exact_word 2 data₄ _ _ hhigh
    exact ⟨.range _ _ hpos (Nat.le_of_not_gt hgt) (lt_of_run_word hhigh),
      by simp [IdItem.encode], rfl⟩
  · -- an item of another type has no numbers
    obtain ⟨⟨rfl, -⟩, -⟩ := Prod.mk.inj (Option.some.inj hbounds)
    exact absurd rfl hpos

theorem parses_idItemList : Parses (256 ^ 4) deserializeIdItemList encodeItems itemSet := by
  intro data hdata a rest h
  obtain ⟨items, mid, hitems, hpure⟩ := run_bind_eq_some.mp h
  obtain ⟨rfl, rfl⟩ := Prod.mk.inj (Option.some.inj hpure)
  obtain ⟨bs, rfl, rfl⟩ := parses_array (parses_idItem _) data hdata items _ hitems
  exact ⟨bs, rfl, rfl⟩

theorem parses_idPair : Parses (256 ^ 4) deserializeIdPair IdPair.encode IdPair.value := by
  intro data hdata a rest h
  obtain ⟨instances, data₁, hinstances, h₁⟩ := run_bind_eq_some.mp h
  obtain ⟨methods, data₂, hmethods, hpure⟩ := run_bind_eq_some.mp h₁
  obtain ⟨rfl, rfl⟩ := Prod.mk.inj (Option.some.inj hpure)
  obtain ⟨bs, rfl, rfl⟩ := parses_idItemList data hdata instances data₁ hinstances
  rw [length_append] at hdata
  obtain ⟨cs, rfl, rfl⟩ := parses_idItemList data₁ (by omega) methods _ hmethods
  exact ⟨⟨bs, cs⟩, by simp [IdPair.encode], rfl⟩

omit [Containers] in
/-- A service that is read is one that a policy may name. -/
theorem parses_service (bound : ℕ) :
    Parses bound deserializeService (fun service : ServiceId => toBytes 2 service) Subtype.val := by
  intro data _ a rest h
  obtain ⟨service, mid, hservice, hcheck⟩ := run_bind_eq_some.mp h
  split_ifs at hcheck with hbad
  · cases hcheck
  obtain ⟨rfl, rfl⟩ := Prod.mk.inj (Option.some.inj hcheck)
  obtain rfl := exact_word 2 data _ _ hservice
  rw [not_or] at hbad
  exact ⟨⟨service, hbad.1, hbad.2, lt_of_run_word hservice⟩, rfl, rfl⟩

theorem parses_request :
    Parses (256 ^ 4) deserializeRequest RequestItem.encode RequestItem.value := by
  intro data hdata a rest h
  obtain ⟨service, data₁, hservice, h₁⟩ := run_bind_eq_some.mp h
  obtain ⟨ids, data₂, hids, hpure⟩ := run_bind_eq_some.mp h₁
  obtain ⟨rfl, rfl⟩ := Prod.mk.inj (Option.some.inj hpure)
  obtain ⟨id, rfl, rfl⟩ := parses_service _ data hdata service data₁ hservice
  obtain ⟨pairs, data₃, hpairs, hpure'⟩ := run_bind_eq_some.mp hids
  obtain ⟨rfl, rfl⟩ := Prod.mk.inj (Option.some.inj hpure')
  rw [length_append] at hdata
  obtain ⟨bs, rfl, rfl⟩ := parses_array parses_idPair data₁ (by omega) pairs _ hpairs
  exact ⟨⟨id, bs⟩, by simp [RequestItem.encode], rfl⟩

theorem parses_offer : Parses (256 ^ 4) deserializeOffer OfferItem.encode OfferItem.value := by
  intro data hdata a rest h
  obtain ⟨service, data₁, hservice, h₁⟩ := run_bind_eq_some.mp h
  obtain ⟨instances, data₂, hinstances, hpure⟩ := run_bind_eq_some.mp h₁
  obtain ⟨rfl, rfl⟩ := Prod.mk.inj (Option.some.inj hpure)
  obtain ⟨id, rfl, rfl⟩ := parses_service _ data hdata service data₁ hservice
  rw [length_append] at hdata
  obtain ⟨bs, rfl, rfl⟩ := parses_idItemList data₁ (by omega) instances _ hinstances
  exact ⟨⟨id, bs⟩, by simp [OfferItem.encode], rfl⟩

omit [Containers] in
/-- A number of four bytes. -/
theorem exists_uint32 {v : ℕ} (h : v < 256 ^ 4) : ∃ u : UInt32, u.toNat = v :=
  ⟨UInt32.ofNat v, UInt32.toNat_ofNat_of_lt' h⟩

/-- **What `deserialize` takes are the bytes of a document.** -/
theorem parses_document (p : Policy) :
    Parses (256 ^ 4) p.deserialize Document.encode fun d => d.addTo p := by
  intro data hdata a rest h
  obtain ⟨uid, data₁, huid, h₁⟩ := run_bind_eq_some.mp h
  obtain ⟨gid, data₂, hgid, h₂⟩ := run_bind_eq_some.mp h₁
  obtain ⟨requests, data₃, hrequests, h₃⟩ := run_bind_eq_some.mp h₂
  obtain ⟨offers, data₄, hoffers, hpure⟩ := run_bind_eq_some.mp h₃
  obtain ⟨rfl, rfl⟩ := Prod.mk.inj (Option.some.inj hpure)
  obtain ⟨u, rfl⟩ := exists_uint32 (lt_of_run_word huid)
  obtain ⟨g, rfl⟩ := exists_uint32 (lt_of_run_word hgid)
  obtain rfl := exact_word 4 data _ data₁ huid
  obtain rfl := exact_word 4 data₁ _ data₂ hgid
  rw [length_append, length_append] at hdata
  obtain ⟨rs, rfl, rfl⟩ := parses_array parses_request data₂ (by omega) requests data₃ hrequests
  rw [length_append] at hdata
  obtain ⟨os, rfl, rfl⟩ := parses_array parses_offer data₃ (by omega) offers _ hoffers
  exact ⟨⟨u, g, rs, os⟩, by simp [Document.encode], rfl⟩

/-! ### Sentences are taken -/

omit [Containers] in
/-- An item is read back, with the lower bound of a lone `ANY_METHOD` replaced. -/
theorem reads_idItem (item : IdItem) : Reads deserializeIdItem item.encode item.bounds := by
  have hcheck : ∀ low high : ℕ, low ≠ 0 → Reads (checkBounds low high) []
      (if low = anyMethod ∧ high = anyMethod then 1 else low, high) := by
    intro low high hpos
    unfold checkBounds
    by_cases hany : low = anyMethod ∧ high = anyMethod
    · rw [if_pos hany]
      exact reads_pure _
    · rw [if_neg hany, if_pos hpos]
      exact reads_pure _
  rcases item with ⟨id, hpos, hlt⟩ | ⟨low, high, hpos, hle, hlt⟩
  · refine (reads_word (by decide)).bind ((reads_word (by decide)).bind ?_)
    have hid : Reads (deserializeBounds 2 1) (toBytes 2 id) (id, id) :=
      (reads_word hlt).check (reads_pure (id, id))
    exact hid.check (hcheck id id hpos)
  · refine (reads_word (by decide)).bind ((reads_word (by decide)).bind ?_)
    have hends : Reads (deserializeBounds 4 2) (toBytes 2 low ++ toBytes 2 high) (low, high) := by
      refine (reads_word (hle.trans_lt hlt)).bind ((reads_word hlt).check ?_)
      rw [if_neg (not_lt.mpr hle)]
      exact reads_pure (low, high)
    exact hends.check (hcheck low high hpos)

omit [Containers] in
/-- An item has bytes. -/
theorem idItem_encode_ne_nil (item : IdItem) : item.encode ≠ [] := by
  rcases item with ⟨id, -, -⟩ | ⟨low, high, -, -, -⟩ <;> exact cons_ne_nil _ _

theorem reads_items {items : List IdItem} (h : (encodeItems items).length < 256 ^ 4) :
    Reads deserializeIdItemList (encodeItems items) (itemSet items) := by
  rw [encodeItems, length_framed] at h
  exact (reads_array (fun item _ => ⟨reads_idItem item, idItem_encode_ne_nil item⟩)
    (by omega)).check (reads_pure _)

theorem reads_pair {pair : IdPair} (h : pair.encode.length < 256 ^ 4) :
    Reads deserializeIdPair pair.encode pair.value := by
  rw [IdPair.encode, length_append] at h
  exact (reads_items (by omega)).bind ((reads_items (by omega)).check (reads_pure _))

omit [Containers] in
/-- A service is read back. -/
theorem reads_serviceId (service : ServiceId) :
    Reads deserializeService (toBytes 2 service) service := by
  obtain ⟨service, h₁, h₂, h₃⟩ := service
  exact reads_service (Nat.pos_of_ne_zero h₁) (by dsimp only; omega)

theorem reads_requestItem {request : RequestItem} (h : request.encode.length < 256 ^ 4) :
    Reads deserializeRequest request.encode request.value := by
  rw [RequestItem.encode, length_append, length_framed] at h
  refine (reads_serviceId request.service).bind ?_
  have hbound : (request.ids.flatMap IdPair.encode).length < 256 ^ 4 := by omega
  have hpairs : ∀ pair ∈ request.ids,
      Reads deserializeIdPair pair.encode pair.value ∧ pair.encode ≠ [] := by
    intro pair hpair
    have hle := length_le_of_mem_flatMap IdPair.encode hpair
    exact ⟨reads_pair (hle.trans_lt hbound), cons_ne_nil _ _⟩
  have hids : Reads deserializeIds (framed 4 (request.ids.flatMap IdPair.encode))
      request.value.2 := (reads_array hpairs hbound).check (reads_pure _)
  exact hids.check (reads_pure _)

theorem reads_offerItem {offer : OfferItem} (h : offer.encode.length < 256 ^ 4) :
    Reads deserializeOffer offer.encode offer.value := by
  rw [OfferItem.encode, length_append] at h
  exact (reads_serviceId offer.service).bind ((reads_items (by omega)).check (reads_pure _))

/-- **The bytes of a document are taken**, if they are no more than a size can say. -/
theorem reads_document (p : Policy) {d : Document} (h : d.encode.length < 256 ^ 4) :
    Reads p.deserialize d.encode (d.addTo p) := by
  simp only [Document.encode, length_append, length_framed] at h
  have hboundr : (d.requests.flatMap RequestItem.encode).length < 256 ^ 4 := by omega
  have hboundo : (d.offers.flatMap OfferItem.encode).length < 256 ^ 4 := by omega
  have hrequests : ∀ request ∈ d.requests,
      Reads deserializeRequest request.encode request.value ∧ request.encode ≠ [] := by
    intro request hrequest
    have hle := length_le_of_mem_flatMap RequestItem.encode hrequest
    exact ⟨reads_requestItem (hle.trans_lt hboundr), cons_ne_nil _ _⟩
  have hoffers : ∀ offer ∈ d.offers,
      Reads deserializeOffer offer.encode offer.value ∧ offer.encode ≠ [] := by
    intro offer hoffer
    have hle := length_le_of_mem_flatMap OfferItem.encode hoffer
    exact ⟨reads_offerItem (hle.trans_lt hboundo), cons_ne_nil _ _⟩
  exact (reads_word d.uid.toNat_lt).bind ((reads_word d.gid.toNat_lt).bind
    ((reads_array hrequests hboundr).bind
      ((reads_array hoffers hboundo).check (reads_pure _))))

/-! ### All bytes and sizes -/

/-- The cursor at the start of `size` bytes of a memory. -/
def cursorAt (memory : List UInt8) (size : ℕ) : Cursor := ⟨memory, 0, size, false⟩

/-- **What `deserialize` accepts.** For all bytes and every size in 32 bits the parser ends, without a
read at or behind the size. It returns true iff the bytes start with a sentence of the grammar, and
then it has taken exactly that sentence, and the policy has the rights of it in addition.
Source: `policy::deserialize` -/
theorem deserialize_document (p : Policy) (memory : List UInt8) (size : ℕ) (hsize : size < 2 ^ 32)
    (hmemory : size ≤ memory.length) :
    ∃ result c, InPlace.deserialize p (cursorAt memory size) = .ok (result, c) ∧ c.strayed = false ∧
      (result.isSome ↔ ∃ d : Document, d.encode <+: memory.take size) ∧
      ∀ q, result = some q → ∃ d : Document, memory.take c.position = d.encode ∧ q = d.addTo p := by
  have hsound : (cursorAt memory size).Sound := by
    rw [Sound, cursorAt, Nat.zero_add]
    exact hmemory
  have hview : (cursorAt memory size).view = memory.take size := by
    rw [view, cursorAt, drop_zero]
  have hlength : (memory.take size).length = size := length_take_of_le hmemory
  obtain ⟨n, hn, hrun, hrest⟩ := InPlace.follows_deserialize p _ hsound
  rw [hview] at hrun hrest
  refine ⟨_, _, hrun, rfl, ?_, ?_⟩
  · rw [Option.isSome_map]
    constructor
    · intro hsome
      obtain ⟨⟨q, rest⟩, hq⟩ := Option.isSome_iff_exists.mp hsome
      obtain ⟨d, hd, -⟩ := parses_document p _ (by rw [hlength]; exact hsize) q rest hq
      exact ⟨d, rest, hd.symm⟩
    · rintro ⟨d, rest, hd⟩
      have hle := congrArg List.length hd
      rw [length_append, hlength] at hle
      rw [← hd, reads_document p (by omega) rest]
      rfl
  · intro q hq
    obtain ⟨⟨q', rest⟩, hq', rfl⟩ := Option.map_eq_some_iff.mp hq
    obtain ⟨d, hd, rfl⟩ := parses_document p _ (by rw [hlength]; exact hsize) q' rest hq'
    refine ⟨d, ?_, rfl⟩
    -- the position is that of the bytes that are left
    have hleft : rest.length = n := by
      rw [hrest _ rest hq', (hsound.leaving hn).length_view, remaining_leaving]
    have htotal := congrArg List.length hd
    rw [hlength, length_append] at htotal
    have hposition : ((cursorAt memory size).leaving n).position = d.encode.length := by
      simp only [leaving, cursorAt]
      omega
    rw [hposition]
    have htake := congrArg (List.take d.encode.length) hd
    rw [take_left, take_take, Nat.min_eq_left (by omega)] at htake
    exact htake

/-- A document for user 1000 and group 100: every method of instance 1 of service 1 may be called, and
the instances 1 to 3 of service 2 may be offered. -/
def smallDocument : Document where
  uid := 1000
  gid := 100
  requests := [⟨⟨1, by decide⟩, [⟨[.single 1 (by decide) (by decide)],
    [.single 0xFFFF (by decide) (by decide)]⟩]⟩]
  offers := [⟨⟨2, by decide⟩, [.range 1 3 (by decide) (by decide) (by decide)]⟩]

omit [Containers] in
/-- The document is short enough for a size. -/
theorem smallDocument_length : smallDocument.encode.length < 256 ^ 4 := by decide +kernel

end containers

open scoped Icl.Pointwise

/-- The document is accepted, with two bytes behind it that are not taken. -/
theorem smallDocument_accepted :
    ∃ q c, InPlace.deserialize .default (cursorAt (smallDocument.encode ++ [0, 0])
        (smallDocument.encode.length + 2)) = .ok (some q, c) ∧ c.strayed = false := by
  have hlt : smallDocument.encode.length + 2 < 2 ^ 32 := by decide +kernel
  obtain ⟨result, c, hrun, hstrayed, hiff, -⟩ := deserialize_document .default
    (smallDocument.encode ++ [0, 0]) (smallDocument.encode.length + 2) hlt
    (by rw [length_append]; rfl)
  have hsome : result.isSome := hiff.mpr ⟨smallDocument, by
    rw [take_of_length_le (by rw [length_append]; rfl)]
    exact prefix_append _ _⟩
  obtain ⟨q, rfl⟩ := Option.isSome_iff_exists.mp hsome
  exact ⟨q, c, hrun, hstrayed⟩

end SomeipTunnel.Security
