import SomeipTunnel.Lib.Codec
import SomeipTunnel.Security.Manager

/-!
# The wire format of a policy

A policy for one user and one group is sent as the two identifiers, an array of requests and an array
of offers. A request is a service and an array of pairs of sets, of instances and of methods; a set is
an array of items, each a single number or a range. `deserialize` takes every bound as closed, and a
lone `0xFFFF` as every number.

A policy whose deserialization fails is given up by its callers, and here too.
-/

namespace SomeipTunnel.Security

open Icl Containers Codec

variable [Containers]

/-- The set of the numbers of one interval.
Source: `policy.cpp`, `its_instances.insert(i.first)` -/
def insertInterval (intervals : IntervalSet 16) (interval : Interval) : IntervalSet 16 :=
  add intervals interval ()

/-- The bounds behind the length and the type of an item; other types leave them zero.
Source: `policy::deserialize_id_item` -/
def deserializeBounds (itsLength itsType : ℕ) : Decoder (ℕ × ℕ) :=
  if itsType = 1 ∧ itsLength = 2 then do
    let low ← word 2
    return (low, low)
  else if itsType = 2 ∧ itsLength = 4 then do
    let low ← word 2
    let high ← word 2
    if low > high then failure else pure (low, high)
  else pure (0, 0)

/-- Handle `ANY_METHOD` and refuse zero.
Source: `policy::deserialize_id_item` -/
def checkBounds (low high : ℕ) : Decoder (ℕ × ℕ) :=
  let low := if low = anyMethod ∧ high = anyMethod then 1 else low
  if low ≠ 0 then pure (low, high) else failure

/-- Source: `policy::deserialize_id_item` -/
def deserializeIdItem : Decoder (ℕ × ℕ) := do
  let itsLength ← word 4
  let itsType ← word 4
  let bounds ← deserializeBounds itsLength itsType
  checkBounds bounds.1 bounds.2

/-- Source: `policy::deserialize_id_item_list` -/
def deserializeIdItemList : Decoder (IntervalSet 16) := do
  let items ← array 4 deserializeIdItem
  return items.foldl (fun s item => insertInterval s (.closed item.1 item.2)) empty

/-- The body of the loop of `deserialize_ids`. -/
def deserializeIdPair : Decoder (IntervalSet 16 × IntervalSet 16) := do
  let itsInstances ← deserializeIdItemList
  let itsMethods ← deserializeIdItemList
  return (itsInstances, itsMethods)

/-- Source: `policy::deserialize_ids`, `its_ids += std::make_pair(i, its_methods)` -/
def addIds (ids : SetMap 16) (pair : IntervalSet 16 × IntervalSet 16) : SetMap 16 :=
  (segments pair.1).foldl (fun ids i => add ids i.1 pair.2) ids

/-- Source: `policy::deserialize_ids` -/
def deserializeIds : Decoder (SetMap 16) := do
  let pairs ← array 4 deserializeIdPair
  return pairs.foldl addIds empty

/-- A service that a policy may name. -/
def deserializeService : Decoder ℕ := do
  let itsService ← word 2
  if itsService = 0 ∨ itsService = 0xFFFF then failure else pure itsService

/-- The body of the loop over the requests, up to the sum. -/
def deserializeRequest : Decoder (ℕ × SetMap 16) := do
  let itsService ← deserializeService
  let itsIds ← deserializeIds
  return (itsService, itsIds)

/-- The body of the loop over the offers, up to the sum. -/
def deserializeOffer : Decoder (ℕ × IntervalSet 16) := do
  let itsService ← deserializeService
  let itsInstances ← deserializeIdItemList
  return (itsService, itsInstances)

/-- Source: `policy::deserialize`, `requests_ += ...` -/
def addRequest (requests : Requests) (request : ℕ × SetMap 16) : Requests :=
  add requests (.closed request.1 request.1) request.2

/-- Source: `policy::deserialize`, `offers_ += ...` -/
def addOffer (offers : SetMap 16) (offer : ℕ × IntervalSet 16) : SetMap 16 :=
  add offers (.closed offer.1 offer.1) offer.2

/-- Source: `policy::deserialize`, `its_gid_set.insert(its_gid)` -/
def itsGidSet (itsGid : ℕ) : IntervalSet 32 :=
  add empty (.closed itsGid itsGid) ()

namespace Policy

/-- Source: `policy::deserialize` -/
def deserialize (p : Policy) : Decoder Policy := do
  let itsUid ← word 4
  let itsGid ← word 4
  let itsRequests ← array 4 deserializeRequest
  let itsOffers ← array 4 deserializeOffer
  return {
    credentials := add p.credentials (.closed itsUid itsUid) (itsGidSet itsGid)
    allowWho := true
    requests := itsRequests.foldl addRequest p.requests
    offers := itsOffers.foldl addOffer p.offers
    allowWhat := true }

end Policy

/-! ### Reading back -/

omit [Containers] in
/-- A service that a policy may name is read back. -/
theorem reads_service {service : ℕ} (h₁ : 1 ≤ service) (h₂ : service ≤ 0xFFFE) :
    Reads deserializeService (toBytes 2 service) service := by
  refine (reads_word (by omega)).check ?_
  rw [if_neg (by omega)]
  exact reads_pure _

end SomeipTunnel.Security
