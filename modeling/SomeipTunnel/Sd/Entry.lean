import Mathlib.Data.List.Sort
import SomeipTunnel.Sd.Option

/-!
# Entries of service discovery messages

An entry names a service or an eventgroup and refers to options of its message by two runs of
indices. `assign_option` extends one of the runs by the index of an option if it lies next to the
run. On the wire a run is its first index and a number of four bits.
-/

namespace SomeipTunnel.Sd

open Cursor Cursor.Parse Someip

/-- Source: `enumeration_types.hpp`, `entry_type_e`; a stop entry has the type of what it stops -/
inductive EntryType
  | findService
  | offerService
  | requestService
  | findEventGroup
  | publishEventgroup
  | subscribeEventgroup
  | subscribeEventgroupAck
  | unknown
deriving DecidableEq, Repr

namespace EntryType

def toByte : EntryType → UInt8
  | findService => 0x00
  | offerService => 0x01
  | requestService => 0x02
  | findEventGroup => 0x04
  | publishEventgroup => 0x05
  | subscribeEventgroup => 0x06
  | subscribeEventgroupAck => 0x07
  | unknown => 0xFF

def ofByte (b : UInt8) : EntryType :=
  if b = 0x00 then findService
  else if b = 0x01 then offerService
  else if b = 0x02 then requestService
  else if b = 0x04 then findEventGroup
  else if b = 0x05 then publishEventgroup
  else if b = 0x06 then subscribeEventgroup
  else if b = 0x07 then subscribeEventgroupAck
  else unknown

/-- Source: `entry_impl::is_service_entry` -/
def isServiceEntry : EntryType → Bool
  | findService | offerService | requestService => true
  | _ => false

/-- Source: `entry_impl::is_eventgroup_entry` -/
def isEventgroupEntry : EntryType → Bool
  | findEventGroup | publishEventgroup | subscribeEventgroup | subscribeEventgroupAck => true
  | _ => false

end EntryType

/-- What the two classes of entries have of their own.
Source: `serviceentry_impl.hpp`, `eventgroupentry_impl.hpp` -/
inductive Detail
  | service (minorVersion : UInt32)
  | eventgroup (reserved eventgroup : UInt16)
deriving DecidableEq, Repr

/-- The same with zeros for the reserved bits and the counter. -/
def Detail.cleared : Detail → Detail
  | .service minorVersion => .service minorVersion
  | .eventgroup _ group => .eventgroup 0 group

/-- Source: `entry_impl.hpp`, `entry_impl`; `index1_`, `index2_` and `num_options_` repeat what the
runs of a received entry are and are left out -/
structure Entry where
  type : EntryType
  service : UInt16
  inst : UInt16
  majorVersion : UInt8
  ttl : UInt32
  detail : Detail
  /-- The runs, `options_[0]` and `options_[1]`. -/
  run1 : List ℕ
  run2 : List ℕ
deriving DecidableEq, Repr

namespace Entry

/-! ### Runs -/

/-- The index lies next to the run, or the run is empty.
Source: `entry_impl::assign_option`, the conditions -/
def adjoins (run : List ℕ) (itsIndex : ℕ) : Bool :=
  run.isEmpty || run.head? == some (itsIndex + 1) || run.getLast?.map (· + 1) == some itsIndex

/-- Source: `entry_impl.cpp`, `options_[0].push_back(its_index)` and `std::sort` -/
def push (run : List ℕ) (itsIndex : ℕ) : List ℕ := (run ++ [itsIndex]).insertionSort (· ≤ ·)

/-- Put the option with the given index into a run; whether there was one for it.
Source: `entry_impl::assign_option` -/
def assignOption (e : Entry) : Option ℕ → Bool × Entry
  | some itsIndex =>
      if itsIndex < 256 then
        if adjoins e.run1 itsIndex then (true, { e with run1 := push e.run1 itsIndex })
        else if adjoins e.run2 itsIndex then (true, { e with run2 := push e.run2 itsIndex })
        else (false, e)
      else (false, e)
  | none => (false, e)

/-! ### Writing -/

/-- The numbers of the two runs in one byte: `size1 << 4 | (size2 & 0x0F)`. -/
def numberOfOptions (e : Entry) : UInt8 := UInt8.ofNat (16 * e.run1.length + e.run2.length % 16)

/-- Source: `entry_impl::serialize`; `serviceentry_impl.cpp`, `serviceentry_impl::serialize`;
`eventgroupentry_impl.cpp`, `eventgroupentry_impl::serialize`, which writes zeros for the reserved
bytes -/
def serialize (e : Entry) : List UInt8 :=
  serialize8 e.type.toByte ++ (serialize8 (UInt8.ofNat (e.run1.head?.getD 0)) ++
    (serialize8 (UInt8.ofNat (e.run2.head?.getD 0)) ++ (serialize8 e.numberOfOptions ++
      (serialize16 e.service ++ (serialize16 e.inst ++ (serialize8 e.majorVersion ++
        (serialize32 e.ttl true ++
          match e.detail with
          | .service minorVersion => serialize32 minorVersion false
          | .eventgroup _ eventgroup => serialize16 0 ++ serialize16 eventgroup)))))))

end Entry

/-! ### Reading -/

/-- The indices of a run: the index counts on in eight bits.
Source: `entry_impl::deserialize`, the loops -/
def indices (first number : ℕ) : List ℕ := (List.range number).map fun i => (first + i) % 256

/-- Source: `serviceentry_impl::deserialize` -/
def deserializeServiceDetail : Parse Detail := do return .service (← deserialize32 false)

/-- Source: `eventgroupentry_impl::deserialize` -/
def deserializeEventgroupDetail : Parse Detail := do
  let reserved ← deserialize16
  let eventgroup ← deserialize16
  return .eventgroup reserved eventgroup

/-- Source: `entry_impl::deserialize`, and what the two classes read alike behind it -/
def deserializeEntryWith (detail : Parse Detail) : Parse Entry := do
  let itsType ← deserialize8
  let index1 ← deserialize8
  let index2 ← deserialize8
  let itsNumbers ← deserialize8
  let service ← deserialize16
  let inst ← deserialize16
  let majorVersion ← deserialize8
  let ttl ← deserialize32 true
  let detail ← detail
  return {
    type := EntryType.ofByte itsType
    service := service
    inst := inst
    majorVersion := majorVersion
    ttl := ttl
    detail := detail
    run1 := indices index1.toNat (itsNumbers.toNat / 16)
    run2 := indices index2.toNat (itsNumbers.toNat % 16) }

/-- Source: `message_impl::deserialize_entry` -/
def deserializeEntry : Parse Entry := do
  let tmpEntryType ← lookAhead 0
  if (EntryType.ofByte tmpEntryType).isServiceEntry then
    deserializeEntryWith deserializeServiceDetail
  else if (EntryType.ofByte tmpEntryType).isEventgroupEntry then
    deserializeEntryWith deserializeEventgroupDetail
  else fail

end SomeipTunnel.Sd
