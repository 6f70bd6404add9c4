import SomeipTunnel.Sd.Entry
import SomeipTunnel.Someip.Message

/-!
# Service discovery messages

A message is a list of entries and a list of options. `add_entry_data` adds an entry with its
options, as far as they are not in the message already, unless the message gets too long; an option
is compared by its contents, kept by its address, and found again by it. The options of an entry are
gone through in the order of their addresses.

`deserialize` reads the header, the entries and the options. It sets what remains for the cursor to
the length of the array it reads, and what remains behind the entries from the number that it kept.
A message that is not read successfully is dropped.
-/

namespace SomeipTunnel.Sd

open Codec Cursor Cursor.Parse Someip

/-- Source: `message_impl.hpp`, `sd::message_impl` -/
structure SdMessage where
  header : Header
  flags : UInt8
  entries : List Entry
  options : List SdOption
deriving DecidableEq, Repr

/-! ### Building -/

/-- Source: `defines.hpp`, `VSOMEIP_SOMEIP_SD_ENTRY_SIZE` -/
def entrySize : ℕ := 16

/-- Source: `defines.hpp`, `VSOMEIP_MAX_UDP_SD_PAYLOAD` -/
def maxUdpSdPayload : ℕ := 1380

/-- Source: `option_impl::get_size` -/
def SdOption.getSize (o : SdOption) : ℕ := o.length.toNat + 3

/-- A message that is being built. Options are objects behind addresses. The sizes are numbers of 32
bits in the source; they are unbounded here, so that a call with 65536 options or more is left out.
Source: `message_impl.hpp`, `entries_`, `options_`, `current_message_size_` -/
structure Builder where
  entries : List Entry
  options : List ℕ
  currentMessageSize : ℕ
deriving DecidableEq, Repr

namespace Builder

/-- Source: `message_impl::message_impl`, with `VSOMEIP_SOMEIP_SD_EMPTY_MESSAGE_SIZE` -/
def empty : Builder := ⟨[], [], 28⟩

/-- Source: `message_impl::find_option`, with `equals` of the options -/
def findOption (heap : ℕ → SdOption) (b : Builder) (option : ℕ) : Option ℕ :=
  b.options.find? fun itsOption => heap itsOption = heap option

/-- Source: `message_impl::get_option_index`; `none` is -1 -/
def getOptionIndex (b : Builder) (option : ℕ) : Option ℕ := b.options.findIdx? (· = option)

/-- Set the value of an address in a map that is ordered by addresses.
Source: `message_impl.cpp`, `its_options[its_option] = ...` -/
def assignAt (option : ℕ) (isNew : Bool) : List (ℕ × Bool) → List (ℕ × Bool)
  | [] => [(option, isNew)]
  | o :: rest =>
      if option < o.1 then (option, isNew) :: o :: rest
      else if option = o.1 then (option, isNew) :: rest
      else o :: assignAt option isNew rest

/-- One option of the loop over the options of a call: the map of options, each with whether it is
new, and the size of the new ones.
Source: `message_impl::add_entry_data`, the loop over `_options` -/
def enterOption (heap : ℕ → SdOption) (b : Builder) (acc : List (ℕ × Bool) × ℕ)
    (itsOption : ℕ) : List (ℕ × Bool) × ℕ :=
  match b.findOption heap itsOption with
  | none => (assignAt itsOption true acc.1, acc.2 + (heap itsOption).getSize)
  | some itsExistingOption => (assignAt itsExistingOption false acc.1, acc.2)

def itsOptions (heap : ℕ → SdOption) (b : Builder) (options : List ℕ) : List (ℕ × Bool) × ℕ :=
  options.foldl (b.enterOption heap) ([], 0)

/-- One option of the loop over `its_options`: it is appended if it is new, and put into a run of the
entry. The first component says whether there was a run for every option so far.
Source: `message_impl::add_entry_data`, the loop over `its_options` -/
def placeOption (acc : Bool × Entry × Builder) (itsOption : ℕ × Bool) : Bool × Entry × Builder :=
  let b := if itsOption.2 then { acc.2.2 with options := acc.2.2.options ++ [itsOption.1] }
    else acc.2.2
  let assigned := acc.2.1.assignOption (b.getOptionIndex itsOption.1)
  (acc.1 && assigned.1, assigned.2, b)

def assignOptions (b : Builder) (entry : Entry) (options : List (ℕ × Bool)) :
    Bool × Entry × Builder :=
  options.foldl placeOption (true, entry, b)

/-- The result says whether the entry was added, and whether `assign_option` put every option into a
run. For the other entry the options are there already.
Source: `message_impl::add_entry_data` -/
def addEntryData (heap : ℕ → SdOption) (b : Builder) (entry : Entry) (options : List ℕ)
    (other : Option Entry) : (Bool × Bool) × Builder :=
  let its := b.itsOptions heap options
  let itsEntrySize := (if other.isSome then 2 * entrySize else entrySize) + its.2
  if b.currentMessageSize + itsEntrySize > maxUdpSdPayload then ((false, true), b)
  else
    let first := b.assignOptions entry its.1
    let b := { first.2.2 with
      entries := b.entries ++ [first.2.1], currentMessageSize := b.currentMessageSize + itsEntrySize }
    match other with
    | none => ((true, first.1), b)
    | some other =>
        let second := b.assignOptions other (its.1.map fun o => (o.1, false))
        ((true, first.1 && second.1), { b with entries := b.entries ++ [second.2.1] })

/-- The message with the objects behind the addresses. -/
def message (heap : ℕ → SdOption) (b : Builder) (header : Header) (flags : UInt8) : SdMessage :=
  ⟨header, flags, b.entries, b.options.map heap⟩

end Builder

namespace SdMessage

/-! ### Writing -/

/-- The length of the options array.
Source: `message_impl::serialize`, `options_length` -/
def optionsLength (m : SdMessage) : ℕ := (m.options.map SdOption.getSize).sum

/-- Source: `message_impl::get_length` -/
def getLength (m : SdMessage) : UInt32 :=
  UInt32.ofNat (12 + (if m.entries.isEmpty then 0 else 4 + entrySize * m.entries.length) + 4 +
    m.optionsLength)

/-- Source: `message_impl::serialize` -/
def serialize (m : SdMessage) : List UInt8 :=
  m.header.serialize m.getLength ++ (serialize8 m.flags ++ (serialize32 0 true ++
    (serialize32 (UInt32.ofNat (entrySize * m.entries.length)) false ++
      (m.entries.flatMap Entry.serialize ++ (serialize32 (UInt32.ofNat m.optionsLength) false ++
        m.options.flatMap SdOption.serialize)))))

/-- Source: `message_impl::get_option` -/
def getOption (m : SdMessage) (index : ℤ) : Option SdOption :=
  if index > -1 then
    if index.toNat < m.options.length then m.options[index.toNat]? else none
  else none

end SdMessage

/-! ### Reading -/

/-- The header, the flags and the length of the entries array.
Source: `message_impl::deserialize`, up to `entries_length` -/
def deserializeFront : Parse (Header × UInt8 × UInt32) := do
  let header ← deserializeHeader
  let flags ← deserialize8
  let _reserved ← deserialize32 true
  let entriesLength ← deserialize32 false
  return (header, flags, entriesLength)

/-- Source: `message_impl::deserialize`, the check for data behind the last option -/
def discardBehind (optionsLength : ℕ) : Parse Unit := do
  if (← remaining) > optionsLength then setRemaining optionsLength else return ()

/-- What follows the entries, if they were read: the length of the options array, zero where it is
not read, limits what remains, and the options are read up to the first failure, which does not
matter.
Source: `message_impl::deserialize`, from `options_length_` on -/
def deserializeOptions : Option (List Entry) → Parse (List Entry × List SdOption)
  | none => do
      discardBehind 0
      let _options ← collect deserializeOption ((← remaining) + 1)
      fail
  | some entries => do
      let optionsLength ← attempt (deserialize32 false)
      discardBehind (optionsLength.getD 0).toNat
      let options ← collect deserializeOption ((← remaining) + 1)
      match optionsLength with
      | none => fail
      | some _ => return (entries, options)

/-- The two arrays.
Source: `message_impl::deserialize`, from `save_remaining` on -/
def deserializeArrays (entriesLength : UInt32) : Parse (List Entry × List SdOption) := do
  let saveRemaining := UInt32.ofNat (← remaining)
  if entriesLength > saveRemaining then fail
  else
    setRemaining entriesLength.toNat
    let entries ← attempt (many deserializeEntry (entriesLength.toNat + 1))
    setRemaining (saveRemaining - entriesLength).toNat
    if (← remaining) = 0 then
      match entries with
      | none => fail
      | some entries => return (entries, [])
    else deserializeOptions entries

/-- Source: `message_impl::deserialize` -/
def deserialize : Parse SdMessage := do
  let (header, flags, entriesLength) ← deserializeFront
  let (entries, options) ← deserializeArrays entriesLength
  return ⟨header, flags, entries, options⟩

end SomeipTunnel.Sd
