import SomeipTunnel.Lib.OrderedMap
import SomeipTunnel.Protocol.RoutingInfo

/-!
# The subscribe command

An application subscribes with a command of a header, the ids of the subscription and, if there is
one, a debounce filter. Nothing in the command says whether a filter follows: the reader takes what
is left for one if there are bytes enough, and reads pairs of an index and a mask as long as nine
bytes are left, so that one byte is left for the last flag.

* `subscribe_round_trip`: for every command, with a filter or without one.
* `subscribe_too_large`: there is a filter for which this happens.

Source: vsomeip/implementation/protocol/src/subscribe_command.cpp, subscribe_command_base.cpp,
command.cpp, vsomeip/interface/vsomeip/structured_types.hpp
-/

namespace SomeipTunnel.Protocol

open Indexed List

namespace Subscribe

/-! ### The code -/

/-- Source: `error_e`, as far as this command needs it. -/
inductive Error where
  | notEnoughBytes
  | maxCommandSizeExceeded
  | malformed
  | mismatch
deriving DecidableEq

/-- Source: `std::size_t`, the type of an index into the payload. -/
abbrev Index := Fin (2 ^ 64)

/-- Source: `debounce_filter_t`. -/
structure DebounceFilter where
  onChange : Bool
  onChangeResetsInterval : Bool
  interval : Int64
  ignore : OrderedMap Index UInt8
  sendCurrentValueAfter : Bool
deriving DecidableEq

/-- Source: `subscribe_command`, with the members of `subscribe_command_base` and `command`. -/
structure SubscribeCommand where
  version : UInt16
  client : UInt16
  size : UInt32
  service : UInt16
  inst : UInt16
  eventgroup : UInt16
  major : UInt8
  event : UInt16
  pendingId : UInt16
  filter : Option DebounceFilter
deriving DecidableEq

/-- Source: `id_e::SUBSCRIBE_ID`. -/
def subscribeId : UInt8 := 0x12

/-- The size of the header and the ids. -/
def fixedSize : ℕ := commandHeaderSize + 2 + 2 + 2 + 1 + 2 + 2

/-- Source: `static_cast<byte_t>` of a flag. -/
def flag (b : Bool) : ℕ := if b then 1 else 0

namespace DebounceFilter

/-- What the filter adds to the size. -/
def size (f : DebounceFilter) : ℕ := 1 + 1 + 8 + f.ignore.entries.length * (8 + 1) + 1

def serializeIgnore (e : Index × UInt8) : Indexed.Writer Error Unit := do
  put (little 8 e.1.val)
  put (little 1 e.2.toNat)

def serialize (f : DebounceFilter) : Indexed.Writer Error Unit := do
  put (little 1 (flag f.onChange))
  put (little 1 (flag f.onChangeResetsInterval))
  put (little 8 f.interval.toUInt64.toNat)
  f.ignore.entries.forM serializeIgnore
  put (little 1 (flag f.sendCurrentValueAfter))

/-- The body of the loop over the pairs: a key must not come twice. -/
def readPair (ignore : OrderedMap Index UInt8) : Reader Error (OrderedMap Index UInt8) := do
  let key ← scalar 8 (Fin.ofNat (2 ^ 64))
  failIf (ignore.Contains key) Error.malformed
  let value ← scalar 1 UInt8.ofNat
  return ignore.emplace key value

/-- The loop over the pairs: it goes on while there are bytes for one. -/
def readIgnore : ℕ → OrderedMap Index UInt8 → Reader Error (OrderedMap Index UInt8)
  | 0, _ => throw .endless
  | fuel + 1, ignore => fun buffer index =>
      if 8 + 1 ≤ buffer.length - index then
        (readPair ignore >>= readIgnore fuel : Reader Error _) buffer index
      else .ok (ignore, index)

def deserialize (fuel : ℕ) : Reader Error DebounceFilter := do
  let onChange ← scalar 1 (· != 0)
  let onChangeResetsInterval ← scalar 1 (· != 0)
  let interval ← scalar 8 fun n => (UInt64.ofNat n).toInt64
  let ignore ← readIgnore fuel .empty
  let sendCurrentValueAfter ← scalar 1 (· != 0)
  return { onChange, onChangeResetsInterval, interval, ignore, sendCurrentValueAfter }

end DebounceFilter

namespace SubscribeCommand

variable (c : SubscribeCommand)

/-- Source: `its_size` in `serialize`. -/
def totalSize : ℕ := fixedSize + c.filter.elim 0 DebounceFilter.size

/-- Source: `command::serialize`. -/
def serializeHeader : Indexed.Writer Error Unit := do
  put (little 1 subscribeId.toNat)
  put (little 2 c.version.toNat)
  put (little 2 c.client.toNat)
  put (little 4 c.size.toNat)

/-- Source: `subscribe_command_base::serialize`. -/
def serializeBase : Indexed.Writer Error Unit := do
  c.serializeHeader
  put (little 2 c.service.toNat)
  put (little 2 c.inst.toNat)
  put (little 2 c.eventgroup.toNat)
  put (little 1 c.major.toNat)
  put (little 2 c.event.toNat)
  put (little 2 c.pendingId.toNat)

def writeAll : Indexed.Writer Error Unit := do
  c.serializeBase
  c.filter.elim (pure ()) DebounceFilter.serialize

/-- The command with its size set. -/
def sized : SubscribeCommand := { c with size := UInt32.ofNat (c.totalSize - commandHeaderSize) }

/-- What stands in the buffer, which is resized before. -/
def serialize (buffer : List UInt8) : Except (Failure Error) (List UInt8) :=
  if 2 ^ 32 - 1 < c.totalSize then .error (.error .maxCommandSizeExceeded)
  else Except.map (fun r => r.2.1) (c.sized.writeAll.run (Buffer.resize buffer c.totalSize 0, 0))

/-- Source: `command::deserialize` and `subscribe_command_base::deserialize`, which reads the header
a second time. -/
def deserializeBase : Reader Error (Option DebounceFilter → SubscribeCommand) := do
  let id ← scalar 1 UInt8.ofNat
  failIf (id ≠ subscribeId) Error.mismatch
  let version ← scalar 2 UInt16.ofNat
  let client ← scalar 2 UInt16.ofNat
  let size ← scalar 4 UInt32.ofNat
  let service ← scalar 2 UInt16.ofNat
  let inst ← scalar 2 UInt16.ofNat
  let eventgroup ← scalar 2 UInt16.ofNat
  let major ← scalar 1 UInt8.ofNat
  let event ← scalar 2 UInt16.ofNat
  let pendingId ← scalar 2 UInt16.ofNat
  return fun filter =>
    { version, client, size, service, inst, eventgroup, major, event, pendingId, filter }

/-- The filter, if what is left is enough for its first members. -/
def deserializeFilter (fuel : ℕ) : Reader Error (Option DebounceFilter) := fun buffer index =>
  if 1 + 1 + 8 ≤ buffer.length - index then
    (do return some (← DebounceFilter.deserialize fuel) : Reader Error _) buffer index
  else .ok (none, index)

def readAll (fuel : ℕ) : Reader Error SubscribeCommand := do
  need fixedSize .notEnoughBytes
  let command ← deserializeBase
  return command (← deserializeFilter fuel)

/-- A new command, which has no filter, reads the buffer. A pair takes nine bytes, so that the loop
ends before its fuel does. -/
def deserialize (buffer : List UInt8) : Except (Failure Error) SubscribeCommand :=
  Except.map Prod.fst (((readAll (buffer.length + 1)).run buffer).run 0)

end SubscribeCommand

/-! ### Numbers -/

theorem reads_flag {ε : Type} (b : Bool) : Reads (scalar 1 (· != 0) : Reader ε _)
    (little 1 (flag b)) b := by
  refine reads_scalar (g := flag) ?_ ?_ <;> cases b <;> decide

theorem reads_interval (x : Int64) :
    Reads (scalar 8 fun n => (UInt64.ofNat n).toInt64 : Reader Error _)
      (little 8 x.toUInt64.toNat) x :=
  reads_scalar (g := fun x : Int64 => x.toUInt64.toNat) x.toUInt64.toNat_lt (by
    rw [UInt64.ofNat_toNat]
    rfl)

theorem reads_index (x : Index) : Reads (scalar 8 (Fin.ofNat (2 ^ 64)) : Reader Error _)
    (little 8 x.val) x :=
  reads_scalar (g := Fin.val) x.isLt (Fin.ofNat_val_eq_self x)

/-! ### The filter -/

variable {fuel : ℕ}

namespace DebounceFilter

variable {f : DebounceFilter}

/-- The image of a pair of an index and a mask. -/
def ignoreBytes (e : Index × UInt8) : List UInt8 := little 8 e.1.val ++ little 1 e.2.toNat

@[simp] theorem length_ignoreBytes (e : Index × UInt8) : (ignoreBytes e).length = 9 := by
  simp [ignoreBytes]

theorem length_flatMap_ignoreBytes (l : List (Index × UInt8)) :
    (l.flatMap ignoreBytes).length = l.length * 9 := by
  rw [length_flatMap]
  simp

/-- The image of a filter. -/
def bytes (f : DebounceFilter) : List UInt8 :=
  little 1 (flag f.onChange) ++ (little 1 (flag f.onChangeResetsInterval) ++
    (little 8 f.interval.toUInt64.toNat ++ (f.ignore.entries.flatMap ignoreBytes ++
      little 1 (flag f.sendCurrentValueAfter))))

theorem length_bytes : f.bytes.length = f.size := by
  simp only [bytes, size, length_append, length_little, length_flatMap_ignoreBytes]
  omega

theorem writes_serialize : Writes f.serialize f.bytes := by
  have hpairs : Writes (f.ignore.entries.forM serializeIgnore)
      (f.ignore.entries.flatMap ignoreBytes) :=
    writes_forM fun e _ => (writes_put _).then (writes_put _)
  exact (writes_put _).then ((writes_put _).then ((writes_put _).then (hpairs.then (writes_put _))))

variable {ignore : OrderedMap Index UInt8}

theorem run_readIgnore_of_lt {buffer : List UInt8} {index : ℕ} (h : buffer.length - index < 9) :
    ((readIgnore (fuel + 1) ignore).run buffer).run index = .ok (ignore, index) :=
  if_neg (Nat.not_le.mpr h)

theorem run_readIgnore_of_le {buffer : List UInt8} {index : ℕ} (h : 9 ≤ buffer.length - index) :
    ((readIgnore (fuel + 1) ignore).run buffer).run index =
      ((readPair ignore >>= readIgnore fuel).run buffer).run index :=
  if_pos h

/-- A pair with a new key is read and added. -/
theorem reads_readPair {key : Index} (value : UInt8) (h : ¬ ignore.Contains key) :
    Reads (readPair ignore) (ignoreBytes (key, value)) (ignore.emplace key value) := by
  refine (reads_index key).bind ((reads_failIf Error.malformed h).bind ?_)
  exact (reads_uint8 value).check (reads_pure _)

/-- The loop reads all pairs, if less than nine bytes follow them. -/
theorem run_readIgnore {l : List (Index × UInt8)} {ignore' : OrderedMap Index UInt8}
    (h : ignore'.entries = ignore.entries ++ l) (hfuel : l.length < fuel) (before : List UInt8)
    {after : List UInt8} (hafter : after.length < 9) :
    ((readIgnore fuel ignore).run (before ++ (l.flatMap ignoreBytes ++ after))).run before.length =
      .ok (ignore', before.length + (l.flatMap ignoreBytes).length) := by
  obtain ⟨fuel, rfl⟩ := Nat.exists_eq_add_one_of_ne_zero (Nat.ne_zero_of_lt hfuel)
  induction l generalizing ignore fuel before with
  | nil =>
      obtain rfl : ignore' = ignore := OrderedMap.ext (by rw [h, append_nil])
      refine run_readIgnore_of_lt ?_
      rw [flatMap_nil, nil_append, length_append, Nat.add_sub_cancel_left]
      exact hafter
  | cons e l ih =>
      obtain ⟨key, value⟩ := e
      have hlt : ∀ e ∈ ignore.entries, e.1 < key := by
        intro e he
        have hsorted := ignore'.sorted
        rw [h, pairwise_append] at hsorted
        exact hsorted.2.2 e he (key, value) mem_cons_self
      rw [length_cons] at hfuel
      obtain ⟨fuel, rfl⟩ := Nat.exists_eq_add_one_of_ne_zero (n := fuel) (by omega)
      have hmore : 9 ≤ (before ++ (((key, value) :: l).flatMap ignoreBytes ++ after)).length -
          before.length := by
        rw [length_append, Nat.add_sub_cancel_left, length_append,
          length_flatMap_ignoreBytes, length_cons]
        omega
      have hnext : ignore'.entries = (ignore.emplace key value).entries ++ l := by
        rw [OrderedMap.emplace_of_lt hlt, h, append_assoc, singleton_append]
      have hrest := ih hnext (before ++ ignoreBytes (key, value)) fuel (by omega)
      rw [length_append, append_assoc] at hrest
      have hpair := reads_readPair value (OrderedMap.not_contains_of_lt hlt)
      rw [run_readIgnore_of_le hmore, flatMap_cons, append_assoc, hpair.run_bind, hrest,
        length_append, Nat.add_assoc]

/-- The code reads the filter back from its image at the end of the buffer. -/
theorem readsRest_deserialize (hfuel : f.ignore.entries.length < fuel) :
    ReadsRest (deserialize fuel) f.bytes f := by
  refine (reads_flag _).bindRest ((reads_flag _).bindRest ((reads_interval _).bindRest ?_))
  intro before
  have hflag : Reads (do
      let sendCurrentValueAfter ← scalar 1 (· != 0)
      return { f with sendCurrentValueAfter := sendCurrentValueAfter } : Reader Error _)
      (little 1 (flag f.sendCurrentValueAfter)) f := (reads_flag _).check (reads_pure _)
  have hlast := hflag.rest (before ++ f.ignore.entries.flatMap ignoreBytes)
  rw [append_assoc, length_append] at hlast
  have hshort : (little 1 (flag f.sendCurrentValueAfter)).length < 9 := by
    rw [length_little]
    decide
  have hempty : f.ignore.entries = OrderedMap.empty.entries ++ f.ignore.entries := rfl
  rw [ReaderT.run_bind, StateT.run_bind, run_readIgnore hempty hfuel before hshort,
    length_append, ← Nat.add_assoc]
  exact hlast

theorem ten_le_size : 10 ≤ f.size := by
  unfold size
  omega

theorem length_entries_le_size : f.ignore.entries.length ≤ f.size := by
  unfold size
  omega

end DebounceFilter

/-! ### The command -/

namespace SubscribeCommand

variable {c : SubscribeCommand}

/-- The image of the header and the ids. -/
def baseBytes (c : SubscribeCommand) : List UInt8 :=
  (little 1 subscribeId.toNat ++ (little 2 c.version.toNat ++
    (little 2 c.client.toNat ++ little 4 c.size.toNat))) ++ (little 2 c.service.toNat ++
      (little 2 c.inst.toNat ++ (little 2 c.eventgroup.toNat ++ (little 1 c.major.toNat ++
        (little 2 c.event.toNat ++ little 2 c.pendingId.toNat)))))

/-- The image of the filter, if there is one. -/
def filterBytes (c : SubscribeCommand) : List UInt8 := c.filter.elim [] DebounceFilter.bytes

/-- The image of a command. -/
def bytes (c : SubscribeCommand) : List UInt8 := c.sized.baseBytes ++ c.filterBytes

@[simp] theorem length_baseBytes : c.baseBytes.length = fixedSize := by
  simp [baseBytes, fixedSize, commandHeaderSize]

theorem length_bytes : c.bytes.length = c.totalSize := by
  rw [bytes, length_append, length_baseBytes, totalSize, filterBytes]
  rcases c.filter with _ | f
  · rfl
  · exact congrArg (fixedSize + ·) DebounceFilter.length_bytes

theorem writes_serializeBase : Writes c.serializeBase c.baseBytes := by
  have hheader := (writes_put (ε := Error) (little 1 subscribeId.toNat)).then
    ((writes_put (little 2 c.version.toNat)).then ((writes_put (little 2 c.client.toNat)).then
      (writes_put (little 4 c.size.toNat))))
  refine hheader.then ((writes_put _).then ((writes_put _).then ((writes_put _).then ?_)))
  exact (writes_put _).then ((writes_put _).then (writes_put _))

theorem writes_writeAll : Writes c.sized.writeAll c.bytes := by
  refine writes_serializeBase.then ?_
  rw [filterBytes]
  change Writes (c.filter.elim (pure ()) DebounceFilter.serialize) _
  rcases c.filter with _ | f
  · exact writes_pure
  · exact DebounceFilter.writes_serialize

/-- Whatever stood in the buffer, the image of the command stands there in the end. -/
theorem serialize_eq (h : c.totalSize ≤ 2 ^ 32 - 1) (buffer : List UInt8) :
    c.serialize buffer = .ok c.bytes := by
  have hlength : (Buffer.resize buffer c.totalSize 0).length = c.bytes.length := by
    rw [Buffer.length_resize, length_bytes]
  have hrun := writes_writeAll.run_fill hlength
  rw [serialize, if_neg (Nat.not_lt.mpr h), hrun]
  rfl

theorem reads_deserializeBase :
    Reads deserializeBase c.baseBytes fun filter => { c with filter := filter } := by
  rw [baseBytes]
  refine (reads_uint8 _).bind ((reads_failIf Error.mismatch (not_not.mpr rfl)).bind ?_)
  refine (reads_uint16 _).bind ((reads_uint16 _).bind ((reads_uint32 _).bind ?_))
  refine (reads_uint16 _).bind ((reads_uint16 _).bind ((reads_uint16 _).bind ?_))
  exact (reads_uint8 _).bind ((reads_uint16 _).bind ((reads_uint16 _).check (reads_pure _)))

theorem readsRest_deserializeFilter (hfuel : c.filterBytes.length < fuel) :
    ReadsRest (deserializeFilter fuel) c.filterBytes c.filter := by
  intro before
  have hrest : (before ++ c.filterBytes).length - before.length = c.filterBytes.length := by
    rw [length_append, Nat.add_sub_cancel_left]
  rw [ReaderT.run, StateT.run, deserializeFilter, hrest]
  rw [filterBytes] at hfuel ⊢
  rcases hc : c.filter with _ | f
  · rfl
  · have hsize : f.bytes.length = f.size := DebounceFilter.length_bytes
    have hlong : 1 + 1 + 8 ≤ f.bytes.length := hsize ▸ DebounceFilter.ten_le_size
    have hentries : f.ignore.entries.length < fuel := by
      rw [hc, Option.elim_some, hsize] at hfuel
      exact DebounceFilter.length_entries_le_size.trans_lt hfuel
    have hsome : ReadsRest (do return some (← DebounceFilter.deserialize fuel) : Reader Error _)
        f.bytes (some f) := (DebounceFilter.readsRest_deserialize hentries).check (reads_pure _)
    rw [Option.elim_some, if_pos hlong]
    exact hsome before

theorem deserialize_bytes : deserialize c.bytes = .ok c.sized := by
  have hfilter : ReadsRest (deserializeFilter (c.bytes.length + 1)) c.filterBytes c.filter := by
    refine readsRest_deserializeFilter ?_
    rw [bytes, length_append]
    omega
  have hread : ReadsRest (do
      let command ← deserializeBase
      return command (← deserializeFilter (c.bytes.length + 1)) : Reader Error _) c.bytes c.sized :=
    reads_deserializeBase.bindRest (hfilter.check (reads_pure _))
  have hroom : 0 + fixedSize ≤ c.bytes.length := by
    rw [length_bytes, totalSize]
    omega
  have hall : ((readAll (c.bytes.length + 1)).run c.bytes).run 0 =
      .ok (c.sized, 0 + c.bytes.length) := by
    rw [readAll, run_need_bind hroom]
    exact hread []
  rw [deserialize, hall]
  rfl

end SubscribeCommand

/-- **Round trip.** For every command, with any ids and without a filter or with any one, and
whatever stood in the buffer before: the bytes that are written are read as the same command; if
they are too many for the size field, nothing is written and this is the error. -/
theorem subscribe_round_trip (c : SubscribeCommand) (buffer : List UInt8) :
    (c.serialize buffer >>= SubscribeCommand.deserialize) =
      if c.totalSize ≤ 2 ^ 32 - 1 then
        .ok { c with size := UInt32.ofNat (c.totalSize - commandHeaderSize) }
      else .error (.error .maxCommandSizeExceeded) := by
  split_ifs with h
  · rw [SubscribeCommand.serialize_eq h]
    exact SubscribeCommand.deserialize_bytes
  · rw [SubscribeCommand.serialize, if_pos (Nat.lt_of_not_le h)]
    rfl

/-- A mask for each of the first indices. -/
def masks (n : ℕ) (h : n ≤ 2 ^ 64) : OrderedMap Index UInt8 where
  entries := (List.finRange n).map fun i => (i.castLE h, 0)
  sorted := by
    rw [pairwise_map]
    exact (pairwise_lt_finRange n).imp fun hlt => hlt

theorem length_masks (n : ℕ) (h : n ≤ 2 ^ 64) : (masks n h).entries.length = n := by
  rw [masks, length_map, length_finRange]

/-- There are filters that do not fit the size field: one with masks for 2^29 indices is not
written. -/
theorem subscribe_too_large : ∃ c : SubscribeCommand, ∃ f, c.filter = some f ∧
    ∀ buffer, c.serialize buffer = .error (.error .maxCommandSizeExceeded) := by
  let f : DebounceFilter := ⟨true, false, -1, masks (2 ^ 29) (by decide), false⟩
  refine ⟨⟨0, 0, 0, 0x1234, 0x5678, 1, 0, 0x8001, 0, some f⟩, f, rfl, fun buffer => ?_⟩
  have hlength : f.ignore.entries.length = 2 ^ 29 := length_masks _ _
  rw [SubscribeCommand.serialize, if_pos]
  rw [SubscribeCommand.totalSize, Option.elim_some, DebounceFilter.size, hlength]
  decide

end Subscribe

end SomeipTunnel.Protocol
